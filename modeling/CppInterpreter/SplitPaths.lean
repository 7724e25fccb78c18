import CppInterpreter.DelimiterSplit
import CppInterpreter.Loops
import CppInterpreter.Strings

/-!
# Splitting a path string

`SplitPaths` visits the components of a path string in a loop that stops in front
of the last one and treats that one after the loop. Whether a component is a
directory is a parameter, asked anew at each visit. In the mode that fails on a
missing component, the loop is left early; when verbose, that exit logs what remains
with a nested loop of its own, which cuts the string of the outer loop again.

The outer loop shortens its string and always ends. The nested loop need not, so
the function carries a budget for it. Apart from the early exit, a call performs one
recording of each nonempty piece of the string, in order; this is the view in which
calls are compared.
-/

namespace CppInterpreter.SplitPaths

open Bytes DelimiterSplit

inductive SplitMode where
  | kPruneNonExistant
  | kFailNonExistant
  | kAllowNonExistant
deriving DecidableEq, Repr

/-- The two lines that a verbose call writes about a path. -/
inductive LogLine where
  | nonexistent (path : Bytes)
  | existing (path : Bytes)
deriving DecidableEq, Repr

/-- The path that a line mentions. -/
def LogLine.path : LogLine → Bytes
  | .nonexistent path => path
  | .existing path => path

/-- The text of a line, as `LogNonExistantDirectory` and the nested loop print it. -/
def LogLine.render : LogLine → Bytes
  | .nonexistent path => text "  ignoring nonexistent directory \"" ++ path ++ text "\"\n"
  | .existing path => text "  ignoring directory that exists \"" ++ path ++ text "\"\n"

/-- The texts tell the lines apart. -/
theorem render_injective : Function.Injective LogLine.render := by
  have apart : ∀ first second : Bytes,
      LogLine.render (.nonexistent first) ≠ LogLine.render (.existing second) := by
    intro first second same
    have front := congrArg (List.take 12) same
    simp only [LogLine.render, List.append_assoc] at front
    rw [List.take_append_of_le_length (by decide), List.take_append_of_le_length (by decide)] at front
    exact absurd front (by decide)
  intro line other same
  cases line with
  | nonexistent path =>
    cases other with
    | nonexistent path' => simpa [LogLine.render] using same
    | existing path' => exact absurd same (apart path path')
  | existing path =>
    cases other with
    | nonexistent path' => exact absurd same.symm (apart path' path)
    | existing path' => simpa [LogLine.render] using same

/-- `llvm::StringRef::split`: everything and nothing when the delimiter is absent. -/
def split (str : Bytes) (delim : Delimiter UInt8) : Bytes × Bytes := (cut delim str).getD (str, [])

/-- The variables of the outer loop, with the lines logged so far. -/
structure Progress where
  pathStr : Bytes
  paths : List Bytes
  allExisted : Bool
  log : List LogLine
deriving DecidableEq

/-- What a call returns and leaves behind. -/
structure Outcome where
  returned : Bool
  paths : List Bytes
  log : List LogLine
deriving DecidableEq

section Calls

variable (isDirectory : Bytes → Bool) (mode : SplitMode) (delim : Delimiter UInt8) (verbose : Bool)

/-- The treatment of a nonempty component that does not leave the loop. The code
behind the loop treats the last component in the same way; there the failing mode
logs a missing one as the pruning mode does. -/
def record (state : Progress) (component : Bytes) : Progress :=
  let found := isDirectory component
  let state := { state with allExisted := state.allExisted && found }
  if found then { state with paths := state.paths ++ [component] }
  else if mode = .kAllowNonExistant then { state with paths := state.paths ++ [component] }
  else if verbose then { state with log := state.log ++ [.nonexistent component] }
  else state

/-- How the outer loop ends: nothing follows the first piece, or a component is
missing in the mode that fails on it. -/
inductive LoopExit where
  | finished (state : Progress)
  | missing (state : Progress)
deriving DecidableEq

/-- The pair that `split` returns never grows, and shrinks when something follows. -/
theorem split_shorter {str : Bytes} {delim : Delimiter UInt8} (more : (split str delim).2 ≠ []) :
    (split str delim).2.length < str.length := by
  cases found : cut delim str with
  | none => simp [split, found] at more
  | some halves =>
    simp only [split, found, Option.getD_some]
    exact cut_shorter (show cut delim str = some (halves.1, halves.2) from found)

/-- The outer loop. Empty components are passed over. -/
def splitLoop (state : Progress) : LoopExit :=
  let parts := split state.pathStr delim
  if _more : parts.2 = [] then .finished state
  else if parts.1 = [] then splitLoop { state with pathStr := parts.2 }
  else if isDirectory parts.1 = false ∧ mode = .kFailNonExistant then .missing state
  else splitLoop { record isDirectory mode verbose state parts.1 with pathStr := parts.2 }
termination_by state.pathStr.length
decreasing_by
  · exact split_shorter _more
  · exact split_shorter _more

/-- The variables of the nested loop: the current pair and the lines logged so far. -/
structure Remaining where
  parts : Bytes × Bytes
  log : List LogLine
deriving DecidableEq

/-- One test and body of the nested loop. It cuts the string of the outer loop, whose
value it never changes, logs the first half, and then cuts the second half. -/
def remainingBody (pathStr : Bytes) (state : Remaining) : Remaining ⊕ Remaining :=
  if state.parts.2 = [] then .inr state
  else
    let parts := split pathStr delim
    let line := if isDirectory parts.1 then LogLine.existing parts.1 else .nonexistent parts.1
    .inl ⟨split parts.2 delim, state.log ++ [line]⟩

/-- The lines that a verbose early exit logs in all. -/
def logRemaining (fuel : Nat) (state : Progress) : Option (List LogLine) :=
  let parts := split state.pathStr delim
  let start : Remaining := ⟨parts, state.log ++ [.nonexistent parts.1]⟩
  (Loops.run (remainingBody isDirectory delim state.pathStr) fuel start).map fun left =>
    if isDirectory left.parts.1 then left.log else left.log ++ [.nonexistent left.parts.1]

/-- `SplitPaths`, started with an empty log. -/
def splitPaths (fuel : Nat) (pathStr : Bytes) (paths : List Bytes) : Option Outcome :=
  match splitLoop isDirectory mode delim verbose ⟨pathStr, paths, true, []⟩ with
  | .missing state =>
    if verbose then
      (logRemaining isDirectory delim fuel state).map fun log => ⟨false, state.paths, log⟩
    else some ⟨false, state.paths, state.log⟩
  | .finished state =>
    let last := trim delim state.pathStr
    let state := if last = [] then state else record isDirectory mode verbose state last
    some ⟨state.allExisted, state.paths, state.log⟩

/-- Nothing is missing in front of the last component, or the mode tolerates it. -/
def Tolerated (pathStr : Bytes) : Prop :=
  mode = .kFailNonExistant → ∀ component ∈ leading delim pathStr, component ≠ [] →
    isDirectory component = true

/-- The outcome of recording components one by one. -/
def recorded (paths components : List Bytes) : Outcome where
  returned := components.all isDirectory
  paths := paths ++ components.filter fun path => isDirectory path || mode = .kAllowNonExistant
  log := if verbose && mode ≠ .kAllowNonExistant then
      (components.filter fun path => !isDirectory path).map .nonexistent
    else []

end Calls

variable {isDirectory : Bytes → Bool} {mode : SplitMode} {delim : Delimiter UInt8} {verbose : Bool}

/-- The string is split at a cut, and left whole when there is none. -/
theorem split_uncut {str : Bytes} (uncut : cut delim str = none) : split str delim = (str, []) := by
  simp [split, uncut]

theorem split_cut {str before after : Bytes} (found : cut delim str = some (before, after)) :
    split str delim = (before, after) := by
  simp [split, found]

/-- Something follows the first half exactly when the cut leaves something. -/
theorem cut_of_split {str : Bytes} (more : (split str delim).2 ≠ []) :
    cut delim str = some (split str delim) := by
  cases found : cut delim str with
  | none => exact absurd (by rw [split_uncut found]) more
  | some halves => simp [split, found]

/-- Recording leaves the string of the loop alone. -/
@[simp] theorem record_pathStr (state : Progress) (component : Bytes) :
    (record isDirectory mode verbose state component).pathStr = state.pathStr := by
  simp only [record]
  split_ifs <;> rfl

/-- Recording reads nothing from the string of the loop. -/
theorem record_with (state : Progress) (component str : Bytes) :
    record isDirectory mode verbose { state with pathStr := str } component =
      { record isDirectory mode verbose state component with pathStr := str } := by
  simp only [record]
  split_ifs <;> rfl

/-- Recording several components in order. -/
theorem record_all (components : List Bytes) (state : Progress) :
    components.foldl (record isDirectory mode verbose) state =
      ⟨state.pathStr,
        (recorded isDirectory mode verbose state.paths components).paths,
        state.allExisted && (recorded isDirectory mode verbose state.paths components).returned,
        state.log ++ (recorded isDirectory mode verbose state.paths components).log⟩ := by
  induction components generalizing state with
  | nil => simp [recorded]
  | cons component rest inductionHypothesis =>
    rw [List.foldl_cons, inductionHypothesis]
    cases found : isDirectory component <;> cases verbose <;> cases mode <;>
      simp [record, recorded, found]

/-- A cut that something follows separates one leading piece. -/
theorem leading_split {str : Bytes} (more : (split str delim).2 ≠ []) :
    leading delim str = (split str delim).1 :: leading delim (split str delim).2 ∧
      trailing delim str = trailing delim (split str delim).2 :=
  ⟨leading_cut (cut_of_split more) more, trailing_cut (cut_of_split more) more⟩

/-- When nothing follows the first half, no piece is leading. -/
theorem leading_stop {str : Bytes} (done : (split str delim).2 = []) :
    leading delim str = [] ∧ trailing delim str = str := by
  cases found : cut delim str with
  | none => exact ⟨leading_uncut found, trailing_uncut found⟩
  | some halves =>
    obtain ⟨before, after⟩ := halves
    have last : after = [] := by simpa only [split_cut found] using done
    subst last
    exact ⟨leading_last found, trailing_last found⟩

/-- The components of a string that something follows are those of both halves. -/
theorem components_split {str : Bytes} (more : (split str delim).2 ≠ []) :
    components delim str =
      nonempty [(split str delim).1] ++ components delim (split str delim).2 := by
  rw [components, pieces_cut (cut_of_split more), ← List.singleton_append, nonempty_append]
  rfl

/-- A string whose cut leaves nothing has at most the first half as a component. -/
theorem components_stop {str : Bytes} (done : (split str delim).2 = []) :
    components delim str = nonempty [(split str delim).1] := by
  rw [components_eq, (leading_stop done).1, (leading_stop done).2, nonempty_nil, List.nil_append]
  cases found : cut delim str with
  | none => rw [trim_uncut found, split_uncut found]
  | some halves =>
    obtain ⟨before, after⟩ := halves
    have last : after = [] := by simpa only [split_cut found] using done
    subst last
    rw [trim_cut found, split_cut found]

/-- Tolerance concerns the first piece and the remaining ones separately. -/
theorem tolerated_split {str : Bytes} (more : (split str delim).2 ≠ []) :
    Tolerated isDirectory mode delim str ↔
      (mode = .kFailNonExistant → (split str delim).1 ≠ [] →
        isDirectory (split str delim).1 = true) ∧
      Tolerated isDirectory mode delim (split str delim).2 := by
  simp only [Tolerated, (leading_split more).1, List.mem_cons, forall_eq_or_imp]
  exact forall_and

/-- A first piece that is empty or a directory leaves the reason for a rejection behind it. -/
theorem rejected_behind {str : Bytes} (more : (split str delim).2 ≠ [])
    (passed : (split str delim).1 ≠ [] → isDirectory (split str delim).1 = true)
    (rejected : ¬ Tolerated isDirectory mode delim str) :
    ¬ Tolerated isDirectory mode delim (split str delim).2 := by
  intro tolerated
  exact rejected ((tolerated_split more).mpr ⟨fun _ => passed, tolerated⟩)

/-- Only one mode does not tolerate every string. -/
theorem failing_of_rejected {str : Bytes} (rejected : ¬ Tolerated isDirectory mode delim str) :
    mode = .kFailNonExistant := by
  by_contra other
  apply rejected
  intro same
  exact absurd same other

/-- The outer loop records the nonempty leading pieces and stops in front of the rest. -/
theorem loop_finished (state : Progress)
    (tolerated : Tolerated isDirectory mode delim state.pathStr) :
    splitLoop isDirectory mode delim verbose state =
      .finished { (nonempty (leading delim state.pathStr)).foldl (record isDirectory mode verbose)
        state with pathStr := trailing delim state.pathStr } := by
  fun_induction splitLoop isDirectory mode delim verbose state with
  | case1 state parts done =>
    rw [(leading_stop done).1, (leading_stop done).2]
    rfl
  | case2 state parts more vacant inductionHypothesis =>
    rw [inductionHypothesis ((tolerated_split more).mp tolerated).2, (leading_split more).1,
      (leading_split more).2, show (split state.pathStr delim).1 = [] from vacant]
    simp only [nonempty_cons_nil, record_all]
    rfl
  | case3 state parts more present missing =>
    have member : parts.1 ∈ leading delim state.pathStr := by
      rw [(leading_split more).1]
      exact List.mem_cons_self
    have found := tolerated missing.2 parts.1 member present
    simp [found] at missing
  | case4 state parts more present kept inductionHypothesis =>
    rw [inductionHypothesis ((tolerated_split more).mp tolerated).2, (leading_split more).1,
      (leading_split more).2, nonempty_cons present, List.foldl_cons]
    simp only [record_all]
    rfl

/-- Without tolerance the outer loop is left at the first missing component that
something follows. The components before it are directories, so they were appended
and nothing was logged. -/
theorem loop_missing (verbose : Bool) (state : Progress)
    (rejected : ¬ Tolerated isDirectory mode delim state.pathStr) :
    ∃ front left, splitLoop isDirectory mode delim verbose state = .missing left ∧
      components delim state.pathStr = front ++ components delim left.pathStr ∧
      (∀ component ∈ front, isDirectory component = true) ∧
      left.paths = state.paths ++ front ∧ left.log = state.log ∧
      (split left.pathStr delim).2 ≠ [] ∧ (split left.pathStr delim).1 ≠ [] ∧
      isDirectory (split left.pathStr delim).1 = false := by
  fun_induction splitLoop isDirectory mode delim verbose state with
  | case1 state parts done =>
    refine absurd ?_ rejected
    intro _ component member
    simp [(leading_stop done).1] at member
  | case2 state parts more vacant inductionHypothesis =>
    have empty : (split state.pathStr delim).1 = [] := vacant
    have later : ¬ Tolerated isDirectory mode delim parts.2 :=
      rejected_behind more (absurd empty) rejected
    obtain ⟨front, left, stopped, same, rest⟩ := inductionHypothesis later
    refine ⟨front, left, stopped, ?_, rest⟩
    rw [components_split more, empty, nonempty_cons_nil, nonempty_nil, List.nil_append, same]
  | case3 state parts more present missing =>
    exact ⟨[], state, rfl, rfl, by simp, by simp, rfl, more, present, missing.1⟩
  | case4 state parts more present kept inductionHypothesis =>
    have failing := failing_of_rejected rejected
    have found : isDirectory parts.1 = true := by
      cases asked : isDirectory parts.1 with
      | true => rfl
      | false => exact absurd ⟨asked, failing⟩ kept
    have later : ¬ Tolerated isDirectory mode delim parts.2 :=
      rejected_behind more (fun _ => found) rejected
    obtain ⟨front, left, stopped, same, directories, paths, log, rest⟩ := inductionHypothesis later
    refine ⟨parts.1 :: front, left, stopped, ?_, ?_, ?_, ?_, rest⟩
    · rw [components_split more, nonempty_cons present, same]
      rfl
    · simpa only [List.forall_mem_cons] using And.intro found directories
    · simp [paths, record, found]
    · simp [log, record, found]

/-- A tolerated call records every component of the string. -/
theorem split_tolerated (fuel : Nat) (pathStr : Bytes) (paths : List Bytes)
    (tolerated : Tolerated isDirectory mode delim pathStr) :
    splitPaths isDirectory mode delim verbose fuel pathStr paths =
      some (recorded isDirectory mode verbose paths (components delim pathStr)) := by
  have recordings : recorded isDirectory mode verbose paths (components delim pathStr) =
      let final := (components delim pathStr).foldl (record isDirectory mode verbose)
        ⟨pathStr, paths, true, []⟩
      ⟨final.allExisted, final.paths, final.log⟩ := by
    simp [record_all]
  rw [splitPaths, loop_finished _ tolerated, recordings, components_eq, List.foldl_append]
  by_cases vacant : trim delim (trailing delim pathStr) = []
  · simp [vacant]
  · simp [vacant, record_with]

/-- A call that is not tolerated returns false. The directories in front of the missing
component are appended; a quiet call logs nothing, and a verbose one returns exactly
when its nested loop does. -/
theorem split_missing (verbose : Bool) (fuel : Nat) (pathStr : Bytes) (paths : List Bytes)
    (rejected : ¬ Tolerated isDirectory mode delim pathStr) :
    ∃ front left, components delim pathStr = front ++ components delim left.pathStr ∧
      (∀ component ∈ front, isDirectory component = true) ∧ left.log = [] ∧
      (split left.pathStr delim).2 ≠ [] ∧ (split left.pathStr delim).1 ≠ [] ∧
      isDirectory (split left.pathStr delim).1 = false ∧
      splitPaths isDirectory mode delim verbose fuel pathStr paths =
        if verbose then (logRemaining isDirectory delim fuel left).map fun log =>
          ⟨false, paths ++ front, log⟩
        else some ⟨false, paths ++ front, []⟩ := by
  obtain ⟨front, left, stopped, same, directories, appended, silent, more, present, missing⟩ :=
    loop_missing verbose ⟨pathStr, paths, true, []⟩ rejected
  refine ⟨front, left, same, directories, silent, more, present, missing, ?_⟩
  rw [splitPaths, stopped]
  simp only [appended, silent]

/-- The nested loop returns only when nothing follows the second component: it cuts
the same string in each iteration, so its variables never change again. -/
theorem remaining_returns {pathStr : Bytes} {log : List LogLine} {left : Remaining}
    (more : (split pathStr delim).2 ≠ [])
    (returns : Loops.Returns (remainingBody isDirectory delim pathStr)
      ⟨split pathStr delim, log⟩ left) :
    (split (split pathStr delim).2 delim).2 = [] ∧
      left.parts = split (split pathStr delim).2 delim ∧
      left.log.map LogLine.path = log.map LogLine.path ++ [(split pathStr delim).1] := by
  have entered : ∀ state : Remaining, state.parts.2 ≠ [] →
      ∃ line : LogLine, line.path = (split pathStr delim).1 ∧
        remainingBody isDirectory delim pathStr state =
          .inl ⟨split (split pathStr delim).2 delim, state.log ++ [line]⟩ := by
    intro state continues
    refine ⟨if isDirectory (split pathStr delim).1 then .existing (split pathStr delim).1
      else .nonexistent (split pathStr delim).1, ?_,
      by simp only [remainingBody, continues, ↓reduceIte]⟩
    split_ifs <;> rfl
  obtain ⟨line, mentioned, stepped⟩ := entered ⟨split pathStr delim, log⟩ more
  rw [Loops.returns_of_continues stepped] at returns
  have done : (split (split pathStr delim).2 delim).2 = [] := by
    by_contra again
    refine Loops.diverges (fun state : Remaining => state.parts.2 ≠ []) ?_ _ again ⟨left, returns⟩
    intro state continues
    obtain ⟨other, _, followed⟩ := entered state continues
    exact ⟨_, followed, again⟩
  have leaves : remainingBody isDirectory delim pathStr
      ⟨split (split pathStr delim).2 delim, log ++ [line]⟩ =
        .inr ⟨split (split pathStr delim).2 delim, log ++ [line]⟩ := by
    simp only [remainingBody, done, ↓reduceIte]
  have same := (Loops.returns_of_leaves leaves left).mp returns
  subst same
  exact ⟨done, rfl, by simp [mentioned]⟩

/-- The paths mentioned by a log that are not empty, in order. -/
def mentions (log : List LogLine) : List Bytes := nonempty (log.map LogLine.path)

/-- A verbose call returns, agrees with the quiet one on the flag and on the appended
paths, and in the failing mode mentions exactly the components from the first missing
one on. The quiet call needs no budget. -/
def VerboseAgrees (isDirectory : Bytes → Bool) (mode : SplitMode) (delim : Delimiter UInt8)
    (pathStr : Bytes) (paths : List Bytes) : Prop :=
  ∃ fuel loud, splitPaths isDirectory mode delim true fuel pathStr paths = some loud ∧
    ∃ quiet, (∀ fuel, splitPaths isDirectory mode delim false fuel pathStr paths = some quiet) ∧
      loud.returned = quiet.returned ∧ loud.paths = quiet.paths ∧
      (mode = .kFailNonExistant →
        mentions loud.log = (components delim pathStr).dropWhile isDirectory)

/-- In a tolerated call of the failing mode only the last component can be missing. -/
theorem missing_is_last {pathStr : Bytes} (tolerated : Tolerated isDirectory mode delim pathStr)
    (failing : mode = .kFailNonExistant) :
    (components delim pathStr).filter (fun path => !isDirectory path) =
      (components delim pathStr).dropWhile isDirectory := by
  have directories : ∀ component ∈ nonempty (leading delim pathStr),
      isDirectory component = true := by
    intro component member
    obtain ⟨leads, present⟩ := mem_nonempty.mp member
    exact tolerated failing component leads present
  rw [components_eq]
  generalize nonempty (leading delim pathStr) = front at directories
  have alone : ∀ last : Bytes, (nonempty [last]).filter (fun path => !isDirectory path) =
      (nonempty [last]).dropWhile isDirectory := by
    intro last
    by_cases vacant : last = []
    · simp [vacant]
    · cases found : isDirectory last <;> simp [vacant, found]
  induction front with
  | nil => exact alone _
  | cons component front inductionHypothesis =>
    rw [List.forall_mem_cons] at directories
    simpa [directories.1] using inductionHypothesis directories.2

/-- A tolerated call behaves alike when verbose and logs what is missing. -/
theorem tolerated_agrees (pathStr : Bytes) (paths : List Bytes)
    (tolerated : Tolerated isDirectory mode delim pathStr) :
    VerboseAgrees isDirectory mode delim pathStr paths := by
  refine ⟨0, _, split_tolerated 0 pathStr paths tolerated, _,
    fun fuel => split_tolerated fuel pathStr paths tolerated, rfl, rfl, ?_⟩
  intro failing
  have logged : (recorded isDirectory mode true paths (components delim pathStr)).log.map
      LogLine.path = (components delim pathStr).filter fun path => !isDirectory path := by
    have plain : mode ≠ .kAllowNonExistant := by simp [failing]
    have same : LogLine.path ∘ LogLine.nonexistent = id := rfl
    simp [recorded, plain, same]
  rw [mentions, logged, ← missing_is_last tolerated failing, nonempty, List.filter_eq_self]
  intro path member
  simpa using (mem_nonempty.mp (List.mem_of_mem_filter member)).2

/-- A call that is not tolerated mentions the missing component twice, if its nested
loop ends at all; no component that follows can make up for the repetition. -/
theorem rejected_disagrees (pathStr : Bytes) (paths : List Bytes)
    (rejected : ¬ Tolerated isDirectory mode delim pathStr) :
    ¬ VerboseAgrees isDirectory mode delim pathStr paths := by
  rintro ⟨fuel, loud, returned, _, _, _, _, mentioned⟩
  have failing := failing_of_rejected rejected
  obtain ⟨front, left, same, directories, silent, more, present, missing, outcome⟩ :=
    split_missing true fuel pathStr paths rejected
  rw [outcome, if_pos rfl] at returned
  obtain ⟨log, finished, rfl⟩ := Option.map_eq_some_iff.mp returned
  obtain ⟨last, ended, exact⟩ := Option.map_eq_some_iff.mp finished
  obtain ⟨done, parts, lines⟩ := remaining_returns more ⟨fuel, ended⟩
  set first := (split left.pathStr delim).1
  set second := (split (split left.pathStr delim).2 delim).1
  have expected : (components delim pathStr).dropWhile isDirectory = first :: nonempty [second] := by
    rw [same, components_split more, components_stop done, nonempty_cons present,
      List.dropWhile_append_of_pos directories]
    simp [missing, second]
  have actual : mentions log =
      first :: first :: if isDirectory second then [] else nonempty [second] := by
    have ending : last.parts.1 = second := congrArg Prod.fst parts
    rw [silent] at lines
    rw [← exact, ending, mentions]
    split_ifs with found
    · simp [lines, LogLine.path, present, first]
    · simp [lines, LogLine.path, present, first]
  rw [mentioned failing, expected, List.cons.injEq] at actual
  by_cases vacant : second = []
  · simp [vacant] at actual
  · cases found : isDirectory second
    · simp [found, vacant] at actual
    · have repeated : second = first := by simpa [found, vacant] using actual
      simp [repeated, missing] at found

/-- Verbosity changes nothing but the log, and the log is right, exactly when the mode
does not fail on missing components or every nonempty component that is followed by
a delimiter and further text is a directory. -/
theorem verbose_agrees_iff (isDirectory : Bytes → Bool) (mode : SplitMode)
    (delim : Delimiter UInt8) (pathStr : Bytes) (paths : List Bytes) :
    VerboseAgrees isDirectory mode delim pathStr paths ↔
      (mode = .kFailNonExistant → ∀ component ∈ leading delim pathStr, component ≠ [] →
        isDirectory component = true) := by
  constructor
  · intro agrees
    by_contra rejected
    exact rejected_disagrees pathStr paths rejected agrees
  · exact tolerated_agrees pathStr paths

/-- The delimiter of environment variables, `kEnvDelim`. -/
def kEnvDelim : Delimiter UInt8 := ⟨text ":", by decide⟩

/-- Without any directory, the verbose split of `a:b:c` in the failing mode enters its
nested loop and stays there. -/
theorem three_missing_disagree :
    ¬ VerboseAgrees (fun _ => false) .kFailNonExistant kEnvDelim (text "a:b:c") [] := by
  apply rejected_disagrees
  intro tolerated
  have first : cut kEnvDelim (text "a:b:c") = some (text "a", text "b:c") := by decide
  have leads : text "a" ∈ leading kEnvDelim (text "a:b:c") := by
    rw [leading_cut first (by decide)]
    exact List.mem_cons_self
  exact absurd (tolerated rfl (text "a") leads (by decide)) (by decide)

end CppInterpreter.SplitPaths
