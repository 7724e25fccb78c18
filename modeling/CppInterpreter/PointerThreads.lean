import CppInterpreter.PointerChecks

/-!
# Checked pointers in several threads

Each thread has lines of its own, and the mapping of pages changes while the threads run. A
process is a sequence of checks by threads and of changes of the mapping, interleaved in any
way.

The lines of a thread are the eight pointers that it has found valid last. So a thread gets the
answers that it would get without the others. An answer may be out of date, but not made up:
the system has found the pointer mapped when the same thread asked for it, now or
before.
-/

namespace CppInterpreter.PointerCheck

open RoundRobin

/-- A call by a thread, or a change of the mapped pages. -/
inductive Event (τ : Type*) where
  | check (thread : τ) (P : UInt64)
  | remap (mapped : Nat → Bool)

/-- The mapped pages, and the lines of each thread. -/
structure Process (τ : Type*) where
  mapped : Nat → Bool
  lines : τ → Lines

/-- The answer to a call. -/
structure Answer (τ : Type*) where
  thread : τ
  P : UInt64
  outcome : Except Errno Bool

/-- The lines of all threads are value-initialized. -/
def Process.start (τ : Type*) (mapped : Nat → Bool) : Process τ := ⟨mapped, fun _ => initial⟩

/-- What the threads mean: each one has found some pointers valid, the latest first. -/
structure History (τ : Type*) where
  mapped : Nat → Bool
  found : τ → List UInt64

/-- The eight pointers found last. As long as there are fewer, null pointers take their
places. -/
def recent (found : List UInt64) : List UInt64 := (found ++ List.replicate 8 0).take 8

variable {τ : Type*} [DecidableEq τ] (system : PageSize)

/-- One event in a process, with the answer to a call. -/
def happen (process : Process τ) : Event τ → Process τ × List (Answer τ)
  | .check thread P =>
    let (cache, outcome) := isMemoryValid system process.mapped (process.lines thread) P
    ({ process with lines := Function.update process.lines thread cache }, [⟨thread, P, outcome⟩])
  | .remap mapped => ({ process with mapped := mapped }, [])

/-- The process after some events, with the answers. -/
def run : Process τ → List (Event τ) → Process τ × List (Answer τ)
  | process, [] => (process, [])
  | process, event :: rest =>
    let (next, first) := happen system process event
    let (last, others) := run next rest
    (last, first ++ others)

/-- A pointer among the recent ones is valid. Any other is asked for, and found if its page is
mapped. -/
def observe (history : History τ) : Event τ → History τ × List (Answer τ)
  | .check thread P =>
    if P ∈ recent (history.found thread) then (history, [⟨thread, P, .ok true⟩])
    else if history.mapped (system.page P) then
      ({ history with found := Function.update history.found thread (P :: history.found thread) },
        [⟨thread, P, .ok true⟩])
    else (history, [⟨thread, P, .ok false⟩])
  | .remap mapped => ({ history with mapped := mapped }, [])

/-- The answers of a history. -/
def observed : History τ → List (Event τ) → List (Answer τ)
  | _, [] => []
  | history, event :: rest =>
    let (next, first) := observe system history event
    first ++ observed next rest

/-- Nothing is found at the beginning. -/
def History.start (τ : Type*) (mapped : Nat → Bool) : History τ := ⟨mapped, fun _ => []⟩

/-- The lines of each thread contain the recent pointers. -/
structure Remembers (process : Process τ) (history : History τ) : Prop where
  mapped : process.mapped = history.mapped
  lines : ∀ thread, (process.lines thread).latest = recent (history.found thread)

variable {process : Process τ} {history : History τ}

/-- A found pointer is recent, and the oldest of the recent ones is not any more. -/
theorem recent_cons (P : UInt64) (found : List UInt64) :
    recent (P :: found) = (P :: recent found).take 8 := by
  simp [recent, List.take_take]

/-- The value-initialized lines contain the null pointers. -/
theorem latest_initial : initial.latest = recent [] := by
  simp [initial, Cache.latest, recent]

/-- A pointer in a line of the thread changes nothing. -/
theorem happen_held {thread : τ} {P : UInt64} (held : (process.lines thread).Holds P) :
    happen system process (.check thread P) = (process, [⟨thread, P, .ok true⟩]) := by
  simp [happen, isMemoryValid_held held]

/-- A pointer in no line of the thread is asked for. -/
theorem happen_missed {thread : τ} {P : UInt64} (missed : ¬ (process.lines thread).Holds P) :
    happen system process (.check thread P) =
      if process.mapped (system.page P) then
        ({ process with
          lines := Function.update process.lines thread ((process.lines thread).push P) },
          [⟨thread, P, .ok true⟩])
      else (process, [⟨thread, P, .ok false⟩]) := by
  cases valid : process.mapped (system.page P) <;>
    simp [happen, isMemoryValid_missed missed, uncached_eq, valid]

/-- An event has the same answer in the process and in the history. -/
theorem happen_observes (remembers : Remembers process history) (event : Event τ) :
    Remembers (happen system process event).1 (observe system history event).1 ∧
      (happen system process event).2 = (observe system history event).2 := by
  obtain ⟨mapped, lines⟩ := remembers
  cases event with
  | remap now => exact ⟨⟨rfl, lines⟩, rfl⟩
  | check thread P =>
    have held_iff := Cache.holds_iff_latest (process.lines thread) P
    rw [lines thread] at held_iff
    by_cases held : (process.lines thread).Holds P
    · rw [happen_held system held, observe, if_pos (held_iff.mp held)]
      exact ⟨⟨mapped, lines⟩, rfl⟩
    · rw [happen_missed system held, observe, if_neg (held_iff.not.mp held), mapped]
      split
      · refine ⟨⟨rfl, fun other => ?_⟩, rfl⟩
        by_cases same : other = thread
        · subst same
          simp [Cache.latest_push, lines, recent_cons]
        · simp [Function.update_of_ne same, lines]
      · exact ⟨⟨mapped, lines⟩, rfl⟩

/-- All events have. -/
theorem run_observes (remembers : Remembers process history) (events : List (Event τ)) :
    (run system process events).2 = observed system history events := by
  induction events generalizing process history with
  | nil => rfl
  | cons event rest inductionHypothesis =>
    obtain ⟨later, answered⟩ := happen_observes system remembers event
    simp only [run, observed, answered, inductionHypothesis later]

/-- However the threads and the changes of the mapping are interleaved, a pointer is valid for a
thread exactly when its page is mapped, or the pointer is among the eight that the thread has
found last. The assertion on the error of `msync` never fails. -/
theorem threads_refine (system : PageSize) (mapped : Nat → Bool) (events : List (Event τ)) :
    (run system (.start τ mapped) events).2 = observed system (.start τ mapped) events :=
  run_observes system ⟨rfl, fun _ => latest_initial⟩ events

/-- An event that a thread takes part in, or that it can notice. -/
def Event.concerns (thread : τ) : Event τ → Bool
  | .check other _ => other = thread
  | .remap _ => true

/-- Two processes are the same to a thread. -/
structure Alike (thread : τ) (first second : Process τ) : Prop where
  mapped : first.mapped = second.mapped
  lines : first.lines thread = second.lines thread

section Isolation

variable {other : Process τ} {thread : τ}

/-- An event that concerns a thread keeps two processes the same to it, and has one answer. -/
theorem happen_alike (alike : Alike thread process other) {event : Event τ}
    (concerns : event.concerns thread = true) :
    Alike thread (happen system process event).1 (happen system other event).1 ∧
      (happen system process event).2 = (happen system other event).2 ∧
      ∀ answer ∈ (happen system process event).2, answer.thread = thread := by
  obtain ⟨mapped, lines⟩ := alike
  cases event with
  | remap now => exact ⟨⟨rfl, lines⟩, rfl, by simp [happen]⟩
  | check asking P =>
    obtain rfl : asking = thread := of_decide_eq_true concerns
    simp only [happen, mapped, lines]
    exact ⟨⟨rfl, by simp⟩, by simp⟩

/-- Any other event changes nothing for the thread. -/
theorem happen_unconcerned (alike : Alike thread process other) {event : Event τ}
    (unconcerned : event.concerns thread = false) :
    Alike thread (happen system process event).1 other ∧
      ∀ answer ∈ (happen system process event).2, answer.thread ≠ thread := by
  obtain ⟨mapped, lines⟩ := alike
  cases event with
  | remap now => cases unconcerned
  | check asking P =>
    have apart : asking ≠ thread := of_decide_eq_false unconcerned
    refine ⟨⟨mapped, ?_⟩, by simp [happen, apart]⟩
    simp [happen, Function.update_of_ne (Ne.symm apart), lines]

/-- Without the events that do not concern it, a thread gets the same answers. -/
theorem run_alike (alike : Alike thread process other) (events : List (Event τ)) :
    (run system process events).2.filter (·.thread = thread) =
      (run system other (events.filter (·.concerns thread))).2 := by
  induction events generalizing process other with
  | nil => rfl
  | cons event rest inductionHypothesis =>
    rw [run, List.filter_append]
    cases concerns : event.concerns thread with
    | true =>
      obtain ⟨later, same, mine⟩ := happen_alike system alike concerns
      have kept := List.filter_eq_self.mpr fun answer member => decide_eq_true (mine answer member)
      rw [kept, inductionHypothesis later, List.filter_cons_of_pos concerns, run, same]
    | false =>
      obtain ⟨later, theirs⟩ := happen_unconcerned system alike concerns
      have dropped : (happen system process event).2.filter (·.thread = thread) = [] := by
        rw [List.filter_eq_nil_iff]
        intro answer member
        simpa using theirs answer member
      rw [dropped, List.nil_append, inductionHypothesis later,
        List.filter_cons_of_neg (by simp [concerns])]

end Isolation

/-- A thread gets the answers that it would get without the calls of other threads. -/
theorem thread_alone (system : PageSize) (mapped : Nat → Bool) (thread : τ) (events : List (Event τ)) :
    (run system (.start τ mapped) events).2.filter (·.thread = thread) =
      (run system (.start τ mapped) (events.filter (·.concerns thread))).2 :=
  run_alike system ⟨rfl, rfl⟩ events

/-- The system has found a pointer mapped when a thread asked for it. -/
def Asked (mapped : Nat → Bool) (events : List (Event τ)) (thread : τ) (P : UInt64) : Prop :=
  ∃ earlier later, events = earlier ++ .check thread P :: later ∧
    (run system (.start τ mapped) earlier).1.mapped (system.page P) = true

/-- What was asked for remains so. -/
theorem Asked.mono {mapped : Nat → Bool} {events : List (Event τ)} {thread : τ} {P : UInt64}
    (asked : Asked system mapped events thread P) (event : Event τ) :
    Asked system mapped (events ++ [event]) thread P := by
  obtain ⟨earlier, later, rfl, found⟩ := asked
  exact ⟨earlier, later ++ [event], by simp, found⟩

/-- The process after one more event. -/
theorem run_append (process : Process τ) (events : List (Event τ)) (event : Event τ) :
    (run system process (events ++ [event])).1 =
      (happen system (run system process events).1 event).1 := by
  induction events generalizing process with
  | nil => rfl
  | cons first rest inductionHypothesis => exact inductionHypothesis _

/-- The null pointer, or one that the system has found mapped when the thread asked for it. -/
def Known (mapped : Nat → Bool) (events : List (Event τ)) (thread : τ) (P : UInt64) : Prop :=
  P = 0 ∨ Asked system mapped events thread P

/-- Every line of a thread contains a known pointer. -/
theorem lines_known (mapped : Nat → Bool) (events : List (Event τ)) (thread : τ) (index : Fin 8) :
    Known system mapped events thread
      (((run system (.start τ mapped) events).1.lines thread).lines index) := by
  induction events using List.reverseRecOn generalizing index with
  | nil => exact .inl rfl
  | append_singleton events event inductionHypothesis =>
    have before : ∀ index, Known system mapped (events ++ [event]) thread
        (((run system (.start τ mapped) events).1.lines thread).lines index) :=
      fun index => (inductionHypothesis index).imp_right fun asked => asked.mono system event
    rw [run_append]
    cases event with
    | remap now => exact before index
    | check asking P =>
      by_cases held : ((run system (.start τ mapped) events).1.lines asking).Holds P
      · rw [happen_held system held]
        exact before index
      · rw [happen_missed system held]
        split
        · next valid =>
          dsimp only
          by_cases same : thread = asking
          · subst same
            rw [Function.update_self]
            have entering : Known system mapped (events ++ [.check thread P]) thread P :=
              .inr ⟨events, [], rfl, valid⟩
            exact Cache.forall_line_push (Known system mapped _ thread) before entering index
          · rw [Function.update_of_ne same]
            exact before index
        · exact before index

/-- A pointer that is valid for a thread is null, or the system has found it mapped when the
thread asked for it, now or before. -/
theorem valid_asked (system : PageSize) (mapped : Nat → Bool) (events : List (Event τ)) (thread : τ)
    (P : UInt64)
    (valid : (happen system (run system (.start τ mapped) events).1 (.check thread P)).2 =
      [⟨thread, P, .ok true⟩]) :
    P = 0 ∨ ∃ earlier later, events ++ [.check thread P] = earlier ++ .check thread P :: later ∧
      (run system (.start τ mapped) earlier).1.mapped (system.page P) = true := by
  by_cases held : ((run system (.start τ mapped) events).1.lines thread).Holds P
  · obtain ⟨index, rfl⟩ := held
    exact (lines_known system mapped events thread index).imp_right fun asked =>
      asked.mono system (.check thread _)
  · rw [happen_missed system held] at valid
    split at valid
    · next now => exact .inr ⟨events, [], rfl, now⟩
    · simp at valid

/-- A pointer that was found stays valid for its thread when its page is unmapped. -/
theorem unmapped_asked :
    (4096 : UInt64) = 0 ∨ ∃ earlier later,
      ([.check 0 4096, .remap fun _ => false] : List (Event Nat)) ++ [.check 0 4096] =
        earlier ++ .check 0 4096 :: later ∧
      (run commonPageSize (.start Nat fun _ => true) earlier).1.mapped (commonPageSize.page 4096) =
        true := by
  apply valid_asked commonPageSize (fun _ => true) [.check 0 4096, .remap fun _ => false] 0 4096
  have missed : ¬ initial.Holds 4096 := by decide
  have first : happen commonPageSize (.start Nat fun _ => true) (.check 0 4096) =
      (⟨fun _ => true, Function.update (fun _ => initial) 0 (initial.push 4096)⟩, [⟨0, 4096, .ok true⟩]) :=
    happen_missed commonPageSize missed
  have after : (run commonPageSize (.start Nat fun _ => true) [.check 0 4096, .remap fun _ => false]).1 =
      ⟨fun _ => false, Function.update (fun _ => initial) 0 (initial.push 4096)⟩ := by
    rw [run, first]
    rfl
  have held : (Function.update (fun _ : Nat => initial) 0 (initial.push 4096) 0).Holds 4096 := by
    rw [Function.update_self]
    exact ⟨1, rfl⟩
  rw [after]
  exact congrArg Prod.snd (happen_held commonPageSize held)

end CppInterpreter.PointerCheck
