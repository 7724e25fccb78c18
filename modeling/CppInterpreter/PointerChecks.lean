import Mathlib.Data.Nat.Bitwise
import CppInterpreter.RoundRobin
import CppInterpreter.Runs

/-!
# Checked pointers

`IsMemoryValid` asks the system whether the page of a pointer is mapped, and keeps the
last eight valid pointers in round-robin lines so that they need not be asked for again.
The lines are value-initialized, so all of them contain the null pointer at first.

The mapped pages are fixed. An answer says what the system was asked to say, or that the
assertion on its error failed.
-/

namespace CppInterpreter.PointerCheck

open RoundRobin Runs

/-- `IsPowerOfTwo`. -/
def isPowerOfTwo (n : UInt64) : Bool :=
  if n &&& 1 = 0 ∧ 1 < n then isPowerOfTwo (n >>> 1) else n = 1
termination_by n.toNat
decreasing_by
  next even =>
    have large : 1 < n.toNat := even.2
    simp [Nat.shiftRight_eq_div_pow]
    omega

/-- An even number is tested for its last bit. -/
theorem toNat_even {n : UInt64} : n &&& 1 = 0 ↔ n.toNat % 2 = 0 := by
  rw [← UInt64.toNat_inj]
  simp [Nat.and_one_is_mod]

/-- An even number above one is a power of two exactly when its half is. -/
theorem halved_pow_iff {n : Nat} (even : n % 2 = 0) (large : 1 < n) :
    (∃ exponent, n / 2 = 2 ^ exponent) ↔ ∃ exponent, n = 2 ^ exponent := by
  constructor
  · rintro ⟨exponent, halved⟩
    refine ⟨exponent + 1, ?_⟩
    rw [Nat.pow_succ, ← halved]
    omega
  · rintro ⟨exponent, rfl⟩
    cases exponent with
    | zero => omega
    | succ exponent => exact ⟨exponent, by rw [Nat.pow_succ]; omega⟩

/-- The loop accepts the powers of two. -/
theorem isPowerOfTwo_iff (n : UInt64) : isPowerOfTwo n = true ↔ ∃ exponent, n.toNat = 2 ^ exponent := by
  fun_induction isPowerOfTwo n with
  | case1 n even inductionHypothesis =>
    rw [inductionHypothesis, ← halved_pow_iff (toNat_even.mp even.1) even.2]
    simp [Nat.shiftRight_eq_div_pow]
  | case2 n finished =>
    rw [decide_eq_true_eq]
    constructor
    · rintro rfl
      exact ⟨0, rfl⟩
    · rintro ⟨exponent, power⟩
      cases exponent with
      | zero => exact UInt64.toNat_inj.mp power
      | succ exponent =>
        have even : n.toNat % 2 = 0 := by omega
        have large : 1 < n.toNat := power ▸ Nat.one_lt_two_pow exponent.succ_ne_zero
        exact absurd ⟨toNat_even.mpr even, large⟩ finished

/-- The size of a page, on which the constructor of `PointerCheck` asserts. -/
structure PageSize where
  page_size : UInt64
  power : isPowerOfTwo page_size = true

/-- `page_mask`. -/
def PageSize.page_mask (system : PageSize) : UInt64 := ~~~(system.page_size - 1)

/-- The address of the page containing a pointer. -/
def PageSize.base (system : PageSize) (P : UInt64) : UInt64 := P &&& system.page_mask

/-- The number of the page containing a pointer. -/
def PageSize.page (system : PageSize) (P : UInt64) : Nat := P.toNat / system.page_size.toNat

/-- The mask rounds an address down to a multiple of the size of a page. -/
theorem toNat_base (system : PageSize) (P : UInt64) :
    (system.base P).toNat = system.page P * system.page_size.toNat := by
  obtain ⟨exponent, power⟩ := (isPowerOfTwo_iff _).mp system.power
  have positive : 1 ≤ system.page_size := by
    rw [UInt64.le_iff_toNat_le, power]
    exact Nat.one_le_two_pow
  have mask : system.page_mask.toNat = 2 ^ 64 - (2 ^ exponent - 1 + 1) := by
    simp [PageSize.page_mask, UInt64.toNat_sub_of_le _ _ positive, power]
  have low : 2 ^ exponent - 1 < 2 ^ 64 := by
    have := system.page_size.toNat_lt
    omega
  apply Nat.eq_of_testBit_eq
  intro index
  rw [PageSize.base, PageSize.page, power, UInt64.toNat_and, Nat.testBit_and, mask,
    Nat.testBit_two_pow_sub_succ low, Nat.testBit_two_pow_sub_one, Nat.testBit_mul_two_pow,
    Nat.testBit_div_two_pow]
  by_cases inside : exponent ≤ index
  · rw [Nat.sub_add_cancel inside]
    by_cases wide : index < 64
    · simp [inside, wide, Nat.not_lt.mpr inside]
    · have high : P.toNat.testBit index = false := by
        apply Nat.testBit_lt_two_pow
        exact P.toNat_lt.trans_le (Nat.pow_le_pow_right (by decide) (Nat.not_lt.mp wide))
      simp [high]
  · simp [inside, Nat.not_le.mp inside]

/-- The errors that `msync` documents for `MS_ASYNC`. -/
inductive Errno where
  | EINVAL
  | ENOMEM
deriving DecidableEq, Repr

/-- `msync` on one page. An address must be a multiple of the size of a page, and its page
mapped. -/
def msync (system : PageSize) (mapped : Nat → Bool) (base : UInt64) : Option Errno :=
  if base.toNat % system.page_size.toNat ≠ 0 then some .EINVAL
  else if mapped (base.toNat / system.page_size.toNat) then none
  else some .ENOMEM

/-- The page containing a pointer is never refused for its address. -/
theorem msync_base (system : PageSize) (mapped : Nat → Bool) (P : UInt64) :
    msync system mapped (system.base P) =
      if mapped (system.page P) then none else some .ENOMEM := by
  have positive : 0 < system.page_size.toNat := by
    obtain ⟨exponent, power⟩ := (isPowerOfTwo_iff _).mp system.power
    rw [power]
    exact Nat.two_pow_pos exponent
  simp [msync, toNat_base, Nat.mul_div_cancel _ positive]

/-- `lines` and `mostRecent`. -/
abbrev Lines := Cache UInt64 8

/-- The value-initialized lines. -/
def initial : Lines := ⟨fun _ => 0, 0⟩

/-- `IsMemoryValid`: the lines after a call, and its answer or the error that fails the
assertion. -/
def isMemoryValid (system : PageSize) (mapped : Nat → Bool) (cache : Lines) (P : UInt64) :
    Lines × Except Errno Bool :=
  if cache.Holds P then (cache, .ok true)
  else
    match msync system mapped (system.base P) with
    | some errno => (cache, if errno = .ENOMEM then .ok false else .error errno)
    | none => (cache.push P, .ok true)

/-- The answer of a check without lines: whether `msync` succeeds on the page. -/
def uncached (system : PageSize) (mapped : Nat → Bool) (P : UInt64) : Except Errno Bool :=
  .ok (msync system mapped (system.base P)).isNone

variable {system : PageSize} {mapped : Nat → Bool} {cache : Lines} {P : UInt64}

/-- A check without lines tells whether the page is mapped. -/
theorem uncached_eq : uncached system mapped P = .ok (mapped (system.page P)) := by
  rw [uncached, msync_base]
  cases mapped (system.page P) <;> rfl

/-- A pointer in a line is valid without further ado. -/
theorem isMemoryValid_held (held : cache.Holds P) :
    isMemoryValid system mapped cache P = (cache, .ok true) := if_pos held

/-- A pointer in no line gets the answer of a check without lines, and enters a line if
its page is mapped. -/
theorem isMemoryValid_missed (missed : ¬ cache.Holds P) : isMemoryValid system mapped cache P =
    (if mapped (system.page P) then cache.push P else cache, uncached system mapped P) := by
  rw [isMemoryValid, if_neg missed, uncached_eq, msync_base]
  cases mapped (system.page P) <;> rfl

/-- A pointer is null or points to a mapped page. -/
def NullOrMapped (system : PageSize) (mapped : Nat → Bool) (P : UInt64) : Prop :=
  P = 0 ∨ mapped (system.page P) = true

/-- Every line contains the null pointer or a pointer to a mapped page. -/
def Backed (system : PageSize) (mapped : Nat → Bool) (cache : Lines) : Prop :=
  ∀ index, NullOrMapped system mapped (cache.lines index)

/-- The initial lines are backed. -/
theorem backed_initial : Backed system mapped initial := fun _ => .inl rfl

/-- A call keeps the lines backed. -/
theorem backed_isMemoryValid (backed : Backed system mapped cache) (P : UInt64) :
    Backed system mapped (isMemoryValid system mapped cache P).1 := by
  by_cases held : cache.Holds P
  · rwa [isMemoryValid_held held]
  · rw [isMemoryValid_missed held]
    cases valid : mapped (system.page P) with
    | false => exact backed
    | true =>
      exact Cache.forall_line_push (NullOrMapped system mapped) backed (.inr valid)

/-- The null pointer is called only while it is in no line, or its page is mapped. -/
def NullForgotten (system : PageSize) (mapped : Nat → Bool) (cache : Lines) (P : UInt64) : Prop :=
  P = 0 → ¬ cache.Holds 0 ∨ mapped (system.page 0) = true

/-- With backed lines, a call is answered like a check without lines exactly when it does
not find the null pointer in a line although its page is unmapped. -/
theorem answer_eq_uncached_iff (backed : Backed system mapped cache) :
    (isMemoryValid system mapped cache P).2 = uncached system mapped P ↔
      NullForgotten system mapped cache P := by
  by_cases held : cache.Holds P
  · rw [isMemoryValid_held held, uncached_eq, NullForgotten]
    constructor
    · rintro answered rfl
      exact .inr (Except.ok.inj answered).symm
    · intro forgotten
      obtain ⟨index, line⟩ := held
      rcases backed index with null | valid
      · obtain rfl : P = 0 := line.symm.trans null
        rw [(forgotten rfl).resolve_left fun absent => absent ⟨index, line⟩]
      · rw [← line, valid]
  · rw [isMemoryValid_missed held]
    exact iff_of_true rfl fun null => .inl (null ▸ held)

/-- Every sequence of calls gets the answers of checks without lines exactly when the null
pointer is called only while it is in no line, or its page is mapped. -/
theorem answers_eq_uncached_iff (system : PageSize) (mapped : Nat → Bool) (calls : List UInt64) :
    answers (isMemoryValid system mapped) initial calls = calls.map (uncached system mapped) ↔
      Meets (performing (checking (isMemoryValid system mapped) (uncached system mapped)))
        (NullForgotten system mapped) initial calls := by
  rw [answers_eq_iff_safe]
  have start : Backed system mapped initial := backed_initial
  refine safe_iff_meets (fun _ _ => trivial) ?_ ?_ calls start
  · rintro cache P outcome backed rfl
    rw [← answer_eq_uncached_iff backed, checking]
    split
    · next right => exact iff_of_true right trivial
    · next wrong => exact iff_of_false wrong id
  · rintro cache P outcome backed rfl accepted
    rw [checking] at accepted ⊢
    split
    · exact backed_isMemoryValid backed P
    · next wrong =>
      rw [if_neg wrong] at accepted
      exact accepted.elim

/-- The lines after a sequence of calls. -/
def after (system : PageSize) (mapped : Nat → Bool) (cache : Lines) (calls : List UInt64) : Lines :=
  calls.foldl (fun cache P => (isMemoryValid system mapped cache P).1) cache

/-- The pointers that enter a line in a sequence of calls. -/
def entered (system : PageSize) (mapped : Nat → Bool) : Lines → List UInt64 → List UInt64
  | _, [] => []
  | cache, P :: rest =>
    let later := entered system mapped (isMemoryValid system mapped cache P).1 rest
    if ¬ cache.Holds P ∧ mapped (system.page P) = true then P :: later else later

/-- Only pointers to mapped pages enter a line. -/
theorem mapped_of_mem_entered {calls : List UInt64} (enters : P ∈ entered system mapped cache calls) :
    mapped (system.page P) = true := by
  induction calls generalizing cache with
  | nil => simp [entered] at enters
  | cons first rest inductionHypothesis =>
    rw [entered] at enters
    split at enters
    · next entering =>
      rcases List.mem_cons.mp enters with rfl | later
      · exact entering.2
      · exact inductionHypothesis later
    · exact inductionHypothesis enters

/-- The lines are those that the entering pointers leave. -/
theorem after_eq_pushAll (calls : List UInt64) :
    after system mapped cache calls = cache.pushAll (entered system mapped cache calls) := by
  induction calls generalizing cache with
  | nil => rfl
  | cons P rest inductionHypothesis =>
    have step : after system mapped cache (P :: rest) =
        after system mapped (isMemoryValid system mapped cache P).1 rest := rfl
    rw [step, inductionHypothesis, entered]
    by_cases held : cache.Holds P
    · simp [held, isMemoryValid_held held]
    · cases valid : mapped (system.page P) <;>
        simp [held, isMemoryValid_missed held, valid, Cache.pushAll]

/-- Once eight pointers have entered the lines, every answer is that of a check without
lines. -/
theorem answer_after_eight {calls : List UInt64}
    (enough : 8 ≤ (entered system mapped initial calls).length) (P : UInt64) :
    (isMemoryValid system mapped (after system mapped initial calls) P).2 =
      uncached system mapped P := by
  have backed : Backed system mapped (after system mapped initial calls) := by
    rw [after_eq_pushAll]
    exact fun index => .inr (mapped_of_mem_entered (Cache.mem_of_holds_pushAll enough ⟨index, rfl⟩))
  rw [answer_eq_uncached_iff backed]
  rintro rfl
  by_cases held : (after system mapped initial calls).Holds 0
  · rw [after_eq_pushAll] at held
    exact .inr (mapped_of_mem_entered (Cache.mem_of_holds_pushAll enough held))
  · exact .inl held

/-- Pages of 4096 bytes. -/
def commonPageSize : PageSize := ⟨4096, (isPowerOfTwo_iff _).mpr ⟨12, rfl⟩⟩

/-- The first call finds the null pointer valid although no page is mapped. -/
theorem null_valid_unmapped :
    answers (isMemoryValid commonPageSize fun _ => false) initial [0] = [.ok true] ∧
      [0].map (uncached commonPageSize fun _ => false) = [.ok false] := by
  constructor
  · simp [answers, isMemoryValid_held (⟨0, rfl⟩ : initial.Holds 0)]
  · simp [uncached_eq]

end CppInterpreter.PointerCheck
