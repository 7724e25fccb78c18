import CppInterpreter.Lexemes
import Mathlib.Algebra.Group.Nat.Defs
import Mathlib.Data.List.TakeWhile
import Mathlib.Data.Nat.Digits.Defs
import Mathlib.Data.Nat.ModEq

/-!
# Values of constants

A token of decimal digits is evaluated when its value is asked for the first time, and the
value is kept. Each digit is multiplied with an entry of a table, told by its distance
from the end. The table has ten entries: eight powers of ten, then the largest 32-bit
number, and a zero.

Runs of digits have their decimal value up to eight digits. Behind ten digits the table
is left. What stands before the last eight digits counts wrongly, unless it is zero. From
2^32 digits on, only a remainder of their number is recorded, and as many digits from the
front are evaluated.
-/

namespace CppInterpreter.MetaLexer

open Bytes

/-- `kPow10`. The entry without an initializer is zero. -/
def kPow10 : List UInt32 :=
  [1, 10, 100, 1000, 10000, 100000, 1000000, 10000000, 0xFFFFFFFF, 0]

/-- A read behind the buffer, or an index outside the table. -/
inductive ConstantFault where
  | buffer (outside : OutOfBounds)
  | power (index : Nat)
deriving DecidableEq, Repr

/-- `*pos - '0'`: a signed byte, widened and converted to the type of the table. -/
def digitValue (ch : UInt8) : UInt32 := ch.toInt8.toInt32.toUInt32 - 48

/-- The loop of `getConstant` over the bytes of a token that remain. -/
def addDigits (buffer : Buffer) : Nat → Nat → UInt32 → Except ConstantFault UInt32
  | 0, _, value => .ok value
  | remaining + 1, pos, value =>
    match buffer.read pos with
    | .error outside => .error (.buffer outside)
    | .ok ch =>
      match kPow10[remaining]? with
      | none => .error (.power remaining)
      | some power => addDigits buffer remaining (pos + 1) (value + digitValue ch * power)

/-- `Token::getConstant`: the value, and the token that keeps it. -/
def getConstant (buffer : Buffer) (token : Token) : Except ConstantFault (UInt32 × Token) :=
  if token.value = 0xFFFFFFFF then
    match addDigits buffer token.length.toNat token.bufStart 0 with
    | .error fault => .error fault
    | .ok value => .ok (value, { token with value })
  else .ok (token.value, token)

/-- The results of a number of calls on one token. -/
def getConstants (buffer : Buffer) : Nat → Token → Except ConstantFault (List UInt32)
  | 0, _ => .ok []
  | calls + 1, token =>
    match getConstant buffer token with
    | .error fault => .error fault
    | .ok (value, token) => (getConstants buffer calls token).map (value :: ·)

/-- The digits that stand at a cursor. -/
def digitsAt (buffer : Buffer) (pos : Nat) : Bytes := (buffer.bytes.drop pos).takeWhile isDigit

/-- The number that a run of digits denotes. -/
def decimal (digits : Bytes) : Nat := Nat.ofDigits 10 (digits.reverse.map fun ch => ch.toNat - 48)

section Decimals

variable {ch : UInt8} {digits : Bytes}

/-- The value of a digit is below ten. -/
theorem digitValue_eq (digit : isDigit ch = true) :
    ch.toNat - 48 ≤ 9 ∧ digitValue ch = UInt32.ofNat (ch.toNat - 48) := by
  revert ch
  apply forall_byte
  decide +kernel

/-- A leading digit counts as often as its position tells. -/
theorem decimal_cons (ch : UInt8) (digits : Bytes) :
    decimal (ch :: digits) = 10 ^ digits.length * (ch.toNat - 48) + decimal digits := by
  simp only [decimal, List.reverse_cons, List.map_append, List.map_cons, List.map_nil,
    Nat.ofDigits_append, Nat.ofDigits_singleton, List.length_map, List.length_reverse]
  rw [Nat.add_comm]

/-- Digits in front count as often as the length of the others tells. -/
theorem decimal_append (front digits : Bytes) :
    decimal (front ++ digits) = 10 ^ digits.length * decimal front + decimal digits := by
  simp only [decimal, List.reverse_append, List.map_append, Nat.ofDigits_append, List.length_map,
    List.length_reverse]
  rw [Nat.add_comm]

/-- A run of digits is below the power of its length. -/
theorem decimal_lt (all : ∀ ch ∈ digits, isDigit ch = true) : decimal digits < 10 ^ digits.length := by
  have below : ∀ digit ∈ digits.reverse.map fun ch => ch.toNat - 48, digit < 10 := by
    simp only [List.mem_map, List.mem_reverse]
    rintro digit ⟨ch, present, rfl⟩
    exact Nat.lt_succ_of_le (digitValue_eq (all ch present)).1
  simpa [decimal] using Nat.ofDigits_lt_base_pow_length (by decide) below

end Decimals

section Table

variable {buffer : Buffer} {digits rest : Bytes} {ch : UInt8} {pos : Nat} {value : UInt32}

/-- A byte of the text is multiplied with the entry for its distance from the end. -/
theorem addDigits_cons (here : buffer.bytes.drop pos = ch :: digits ++ rest) :
    addDigits buffer (ch :: digits).length pos value =
      match kPow10[digits.length]? with
      | none => .error (.power digits.length)
      | some power => addDigits buffer digits.length (pos + 1) (value + digitValue ch * power) := by
  have read : buffer.read pos = .ok ch := (read_contents here).2.1
  simp only [List.length_cons, addDigits, read]

/-- The text behind a byte is found one position later. -/
theorem drop_next (here : buffer.bytes.drop pos = ch :: digits ++ rest) :
    buffer.bytes.drop (pos + 1) = digits ++ rest := (read_contents here).2.2.1

/-- The table starts with the powers of ten below the eighth. -/
theorem kPow10_power {index : Nat} (low : index < 8) : kPow10[index]? = some (UInt32.ofNat (10 ^ index)) := by
  revert index
  decide

/-- Up to eight digits count as much as they should. -/
theorem addDigits_low (here : buffer.bytes.drop pos = digits ++ rest)
    (all : ∀ ch ∈ digits, isDigit ch = true) (short : digits.length ≤ 8) :
    addDigits buffer digits.length pos value = .ok (value + UInt32.ofNat (decimal digits)) := by
  induction digits generalizing pos value with
  | nil => simp [addDigits, decimal]
  | cons ch digits inductionHypothesis =>
    have digit := (digitValue_eq (all ch List.mem_cons_self)).2
    have later (value : UInt32) : addDigits buffer digits.length (pos + 1) value =
        .ok (value + UInt32.ofNat (decimal digits)) :=
      inductionHypothesis (drop_next here) (List.forall_mem_cons.mp all).2 (Nat.le_of_succ_le short)
    rw [addDigits_cons here, kPow10_power short]
    dsimp only
    rw [later, digit, decimal_cons, UInt32.ofNat_add, UInt32.ofNat_mul, UInt32.add_assoc,
      UInt32.mul_comm]

/-- Behind ten digits the table is left. -/
theorem addDigits_outside (here : buffer.bytes.drop pos = digits ++ rest)
    (long : 10 < digits.length) :
    addDigits buffer digits.length pos value = .error (.power (digits.length - 1)) := by
  cases digits with
  | nil => cases long
  | cons ch digits =>
    have absent : kPow10[digits.length]? = none :=
      List.getElem?_eq_none (Nat.le_of_lt_succ long)
    rw [addDigits_cons here, absent]
    rfl

/-- Nine digits count wrongly, unless the first one is zero. -/
theorem addDigits_nine (here : buffer.bytes.drop pos = ch :: digits ++ rest)
    (all : ∀ other ∈ ch :: digits, isDigit other = true) (eight : digits.length = 8) :
    addDigits buffer (ch :: digits).length pos value =
      .ok (value + UInt32.ofNat (0xFFFFFFFF * (ch.toNat - 48) + decimal digits)) := by
  have digit := (digitValue_eq (all ch List.mem_cons_self)).2
  have entry : kPow10[digits.length]? = some (UInt32.ofNat 0xFFFFFFFF) := by
    rw [eight]
    rfl
  have later (value : UInt32) : addDigits buffer digits.length (pos + 1) value =
      .ok (value + UInt32.ofNat (decimal digits)) :=
    addDigits_low (drop_next here) (List.forall_mem_cons.mp all).2 eight.le
  rw [addDigits_cons here, entry]
  dsimp only
  rw [later, digit, UInt32.ofNat_add, UInt32.ofNat_mul, UInt32.add_assoc, UInt32.mul_comm]

/-- The first of ten digits does not count at all. -/
theorem addDigits_ten (here : buffer.bytes.drop pos = ch :: digits ++ rest)
    (nine : digits.length = 9) :
    addDigits buffer (ch :: digits).length pos value = addDigits buffer digits.length (pos + 1) value := by
  have entry : kPow10[digits.length]? = some 0 := by
    rw [nine]
    rfl
  rw [addDigits_cons here, entry]
  simp only [UInt32.mul_zero, UInt32.add_zero]

/-- Numbers below 2^32 are told apart in 32 bits. -/
theorem ofNat_eq_iff {first second : Nat} (fits : second < 2 ^ 32) :
    UInt32.ofNat first = UInt32.ofNat second ↔ first % 2 ^ 32 = second := by
  rw [← UInt32.toNat_inj, UInt32.toNat_ofNat', UInt32.toNat_ofNat', Nat.mod_eq_of_lt fits]

/-- A multiple of the largest number counts down, so digits in front of the last eight
count correctly only when they are zero. A front that counted correctly would be a multiple
of 2^32 together with its last digit; but it is a multiple of 2^8 itself, and the digit is
too small for one. -/
theorem high_counts_iff {high digit low : Nat} (bound : digit ≤ 9) (last : high = 0 → digit = 0)
    (fits : 100000000 * high + low < 2 ^ 32) :
    UInt32.ofNat (0xFFFFFFFF * digit + low) = UInt32.ofNat (100000000 * high + low) ↔ high = 0 := by
  rw [ofNat_eq_iff fits]
  constructor
  · intro counted
    have same : 0xFFFFFFFF * digit + low ≡ 100000000 * high + low [MOD 2 ^ 32] := by
      rw [Nat.ModEq, counted, Nat.mod_eq_of_lt fits]
    have laps : 0xFFFFFFFF * digit + digit = 2 ^ 32 * digit := (Nat.succ_mul 0xFFFFFFFF digit).symm
    have turned : 100000000 * high + digit ≡ 0 [MOD 2 ^ 32] := by
      apply Nat.ModEq.add_right_cancel' low
      calc 100000000 * high + digit + low
        _ = 100000000 * high + low + digit := Nat.add_right_comm _ _ _
        _ ≡ 0xFFFFFFFF * digit + low + digit [MOD 2 ^ 32] := same.symm.add_right digit
        _ = 0xFFFFFFFF * digit + digit + low := Nat.add_right_comm _ _ _
        _ = 2 ^ 32 * digit + low := by rw [laps]
        _ ≡ 0 + low [MOD 2 ^ 32] := by simp [Nat.ModEq]
    have multiple := Nat.modEq_zero_iff_dvd.mp turned
    have front : 2 ^ 8 ∣ 100000000 * high := Dvd.dvd.mul_right (by decide) high
    have behind : 2 ^ 8 ∣ digit := by
      apply (Nat.dvd_add_right front).mp
      exact Nat.dvd_trans (Nat.pow_dvd_pow 2 (by decide)) multiple
    have none_ : digit = 0 :=
      Nat.eq_zero_of_dvd_of_lt behind (Nat.lt_of_le_of_lt bound (by decide))
    rw [none_, Nat.add_zero] at multiple
    have gone := Nat.eq_zero_of_dvd_of_lt multiple (Nat.lt_of_le_of_lt (Nat.le_add_right _ low) fits)
    exact (Nat.mul_eq_zero.mp gone).resolve_left (by decide)
  · intro zero
    obtain rfl := last zero
    subst zero
    exact Nat.mod_eq_of_lt fits

/-- Digits have their decimal value when there are at most ten of them, and only the last
eight are not zero. -/
theorem addDigits_decimal_iff (here : buffer.bytes.drop pos = digits ++ rest)
    (all : ∀ ch ∈ digits, isDigit ch = true) (fits : decimal digits < 2 ^ 32) :
    addDigits buffer digits.length pos 0 = .ok (UInt32.ofNat (decimal digits)) ↔
      digits.length ≤ 10 ∧ decimal digits < 10 ^ 8 := by
  rcases Nat.lt_or_ge 10 digits.length with long | short
  · simp [addDigits_outside here long, long]
  rcases Nat.lt_or_ge 8 digits.length with high | low
  · obtain ⟨ch, digits, rfl⟩ := List.exists_cons_of_length_pos (Nat.zero_lt_of_lt high)
    have bound := (digitValue_eq (all ch List.mem_cons_self)).1
    have inner : ∀ other ∈ digits, isDigit other = true := (List.forall_mem_cons.mp all).2
    rw [List.length_cons] at high short
    rcases Nat.lt_or_ge 8 digits.length with ten | nine
    · -- The first digit is skipped, and the second one counts down.
      have length : digits.length = 9 := by omega
      obtain ⟨second, digits, rfl⟩ := List.exists_cons_of_length_pos (Nat.zero_lt_of_lt ten)
      have eight : digits.length = 8 := by simpa using length
      have secondBound := (digitValue_eq (inner second List.mem_cons_self)).1
      have below := decimal_lt (List.forall_mem_cons.mp inner).2
      have number : decimal (ch :: second :: digits) =
          100000000 * (10 * (ch.toNat - 48) + (second.toNat - 48)) + decimal digits := by
        rw [decimal_cons, decimal_cons, length, eight]
        omega
      rw [eight] at below
      rw [number] at fits ⊢
      rw [addDigits_ten here length, addDigits_nine (drop_next here) inner eight, UInt32.zero_add,
        Except.ok.injEq, high_counts_iff secondBound (by omega) fits, List.length_cons, length]
      omega
    · have eight : digits.length = 8 := by omega
      have below := decimal_lt inner
      have number : decimal (ch :: digits) = 100000000 * (ch.toNat - 48) + decimal digits := by
        rw [decimal_cons, eight]
        omega
      rw [eight] at below
      rw [number] at fits ⊢
      rw [addDigits_nine here all eight, UInt32.zero_add, Except.ok.injEq,
        high_counts_iff bound id fits, List.length_cons, eight]
      omega
  · have below := decimal_lt all
    have power : 10 ^ digits.length ≤ 10 ^ 8 := Nat.pow_le_pow_right (by decide) low
    rw [addDigits_low here all low, UInt32.zero_add]
    exact iff_of_true rfl ⟨short, by omega⟩

/-- A run of digits is recorded with at most ten of them, and only its last eight are not
zero. If 32 bits do not hold its length, it is zero altogether. -/
def Evaluates (digits : Bytes) : Prop :=
  digits.length % 2 ^ 32 ≤ 10 ∧ decimal digits < 10 ^ 8 ∧
    (digits.length < 2 ^ 32 ∨ decimal digits = 0)

/-- Of a run that is too long for 32 bits, only zeros are evaluated. -/
theorem front_zero {front back : Bytes} (fits : decimal (front ++ back) < 2 ^ 32)
    (long : 2 ^ 32 ≤ back.length) : decimal front = 0 := by
  have power : 10 ^ 10 ≤ 10 ^ back.length := Nat.pow_le_pow_right (by decide) (by omega)
  rw [decimal_append] at fits
  by_contra nonzero
  have many : 10 ^ back.length ≤ 10 ^ back.length * decimal front :=
    Nat.le_mul_of_pos_right _ (Nat.pos_of_ne_zero nonzero)
  omega

/-- The digits that are recorded have the decimal value of the run when it evaluates. -/
theorem addDigits_recorded_iff (here : buffer.bytes.drop pos = digits ++ rest)
    (all : ∀ ch ∈ digits, isDigit ch = true) (fits : decimal digits < 2 ^ 32) :
    addDigits buffer (digits.length % 2 ^ 32) pos 0 = .ok (UInt32.ofNat (decimal digits)) ↔
      Evaluates digits := by
  rcases Nat.lt_or_ge digits.length (2 ^ 32) with short | long
  · rw [Evaluates, Nat.mod_eq_of_lt short, addDigits_decimal_iff here all fits]
    simp only [short, true_or, and_true]
  · have recorded : digits.length % 2 ^ 32 < 2 ^ 32 := Nat.mod_lt _ (by decide)
    have multiple := Nat.mod_add_div digits.length (2 ^ 32)
    obtain ⟨front, back, rfl, length⟩ : ∃ front back, digits = front ++ back ∧
        front.length = digits.length % 2 ^ 32 :=
      ⟨digits.take (digits.length % 2 ^ 32), digits.drop (digits.length % 2 ^ 32),
        (List.take_append_drop _ _).symm, by rw [List.length_take]; omega⟩
    rw [List.length_append] at long multiple recorded length
    have zero := front_zero fits (by omega)
    have frontAll : ∀ ch ∈ front, isDigit ch = true := fun ch present =>
      all ch (List.mem_append_left _ present)
    rw [List.append_assoc] at here
    have evaluated := addDigits_decimal_iff here frontAll (by omega)
    rw [zero] at evaluated
    rw [Evaluates, List.length_append, ← length]
    rcases Nat.lt_or_ge 10 front.length with outside | inside
    · simp [addDigits_outside here outside, outside]
    · rw [evaluated.mpr ⟨inside, by decide⟩, Except.ok.injEq, ofNat_eq_iff fits]
      omega

end Table

section Tokens

variable {buffer : Buffer} {pos : Nat} {token : Token} {value : UInt32}

/-- No mark and no punctuator is a constant. -/
theorem constant_unlisted (ch next : UInt8) :
    pairs.lookup (ch, next) ≠ some .constant ∧ punctuators.lookup ch ≠ some .constant := by
  constructor
  · rw [pairs_lookup]
    split_ifs <;> simp
  · intro single
    have other : ∀ entry ∈ punctuators, entry.2 ≠ .constant := by decide
    exact other (ch, .constant) (mem_of_lookup single) rfl

/-- A constant is a run of digits. -/
theorem lexeme_constant {text : Bytes} {length : Nat} (found : lexeme text = .token .constant length) :
    length = (text.takeWhile isDigit).length := by
  cases text with
  | nil => cases found
  | cons ch rest =>
    obtain ⟨noMark, noPunctuator⟩ := constant_unlisted ch (rest.headD 0)
    simp only [lexeme] at found
    split at found
    · split at found
      · split_ifs at found
        all_goals cases found
      all_goals cases found
    · split at found
      · next mark =>
        cases found
        exact absurd mark noMark
      · next single =>
        cases found
        exact absurd single noPunctuator
      · split_ifs at found with digit
        all_goals cases found
        rw [List.takeWhile_cons_of_pos digit, List.length_cons, Nat.add_comm]

/-- A call outside the buffer reads outside of it. -/
theorem lex_inside {lexed : Lexed} (called : lex buffer pos = .ok lexed) : pos ≤ buffer.size := by
  by_contra outside
  have nothing : buffer.readable pos = [] := by
    simp only [Buffer.readable, List.drop_eq_nil_iff, List.length_append, List.length_cons,
      List.length_nil]
    exact Nat.lt_of_not_le outside
  simp [lex, Buffer.read, nothing, bind, Except.bind] at called

/-- A token that is a constant starts with the digits at the cursor, and records their
number in 32 bits. -/
theorem lex_constant {lexed : Lexed} (called : lex buffer pos = .ok lexed)
    (constant : lexed.token.kind = .constant) :
    lexed.token = ⟨.constant, pos, UInt32.ofNat (digitsAt buffer pos).length, 0xFFFFFFFF⟩ := by
  have yields := lex_yields (lex_inside called)
  cases found : lexeme (buffer.bytes.drop pos) with
  | token kind length =>
    rw [found] at yields
    obtain ⟨_, _, _, _, asserted, same⟩ := yields
    cases called.symm.trans same
    simp only [storedKind] at constant ⊢
    split at constant
    · cases constant
    · subst constant
      rw [if_neg (by simp), digitsAt, ← lexeme_constant found]
  | unknown =>
    rw [found] at yields
    cases called.symm.trans yields.1
    cases constant
  | endOfInput =>
    rw [found] at yields
    cases called.symm.trans yields.2
    cases constant
  | unterminated =>
    rw [found] at yields
    obtain ⟨_, asserted, same⟩ := yields
    cases called.symm.trans same
    cases constant
  | overrun =>
    rw [found] at yields
    cases called.symm.trans yields

/-- A token keeps its value: the next call gives it again. -/
theorem getConstant_again {after : Token} (evaluated : getConstant buffer token = .ok (value, after)) :
    getConstant buffer after = .ok (value, after) := by
  unfold getConstant at evaluated
  split at evaluated
  · split at evaluated
    · cases evaluated
    · next total =>
      cases evaluated
      unfold getConstant
      split
      · rw [total]
      · rfl
  · next known =>
    cases evaluated
    exact if_neg known

/-- Every call gives the value of the first one. -/
theorem getConstants_replicate {after : Token} (calls : Nat)
    (evaluated : getConstant buffer token = .ok (value, after)) :
    getConstants buffer calls token = .ok (List.replicate calls value) := by
  induction calls generalizing token with
  | zero => rfl
  | succ calls inductionHypothesis =>
    simp only [getConstants, evaluated, inductionHypothesis (getConstant_again evaluated),
      List.replicate_succ, Except.map]

/-- The first call evaluates the digits. -/
theorem getConstants_iff (unknown : token.value = 0xFFFFFFFF) :
    (∀ calls, getConstants buffer calls token = .ok (List.replicate calls value)) ↔
      addDigits buffer token.length.toNat token.bufStart 0 = .ok value := by
  constructor
  · intro always
    have first := always 1
    simp only [getConstants, getConstant, unknown, ↓reduceIte] at first
    split at first
    · cases first
    · next evaluated =>
      split at evaluated
      · cases evaluated
      · next total =>
        cases evaluated
        simp only [Except.map, List.replicate_one, Except.ok.injEq, List.cons.injEq, and_true] at first
        rw [total, first]
  · intro total calls
    apply getConstants_replicate calls
    simp only [getConstant, unknown, ↓reduceIte, total]
    rfl

/-- All calls on a constant give the decimal value of its digits exactly when at most ten
of them are recorded, only the last eight are not zero, and a run that 32 bits do not
count is zero. -/
theorem getConstant_decimal_iff (buffer : Buffer) (pos : Nat) (lexed : Lexed)
    (called : lex buffer pos = .ok lexed) (constant : lexed.token.kind = .constant)
    (fits : decimal (digitsAt buffer pos) < 2 ^ 32) :
    (∀ calls, getConstants buffer calls lexed.token =
        .ok (List.replicate calls (UInt32.ofNat (decimal (digitsAt buffer pos))))) ↔
      Evaluates (digitsAt buffer pos) := by
  have token := lex_constant called constant
  have recorded := UInt32.toNat_ofNat' (n := (digitsAt buffer pos).length)
  have here : buffer.bytes.drop pos =
      digitsAt buffer pos ++ (buffer.bytes.drop pos).dropWhile isDigit :=
    List.takeWhile_append_dropWhile.symm
  have all : ∀ ch ∈ digitsAt buffer pos, isDigit ch = true := fun ch present =>
    List.mem_takeWhile_imp present
  rw [getConstants_iff (by rw [token]), token]
  dsimp only
  rw [recorded]
  exact addDigits_recorded_iff here all fits

/-- A buffer with a constant. -/
def twelveBuffer : Buffer := ⟨text "012", by decide⟩

/-- The equivalence for three digits. -/
theorem twelve_decimal :
    (∀ calls, getConstants twelveBuffer calls ⟨.constant, 0, 3, 0xFFFFFFFF⟩ =
        .ok (List.replicate calls (UInt32.ofNat (decimal (digitsAt twelveBuffer 0))))) ↔
      Evaluates (digitsAt twelveBuffer 0) :=
  getConstant_decimal_iff twelveBuffer 0 ⟨⟨.constant, 0, 3, 0xFFFFFFFF⟩, 3, true⟩ (by decide +kernel)
    rfl (by decide)

/-- A buffer with a power of ten behind the table. -/
def hundredMillionBuffer : Buffer := ⟨text "100000000", by decide⟩

/-- A one and eight zeros evaluate to the largest number. -/
theorem hundred_million_differs :
    lex hundredMillionBuffer 0 = .ok ⟨⟨.constant, 0, 9, 0xFFFFFFFF⟩, 9, true⟩ ∧
      decimal (digitsAt hundredMillionBuffer 0) = 100000000 ∧
      getConstants hundredMillionBuffer 1 ⟨.constant, 0, 9, 0xFFFFFFFF⟩ = .ok [0xFFFFFFFF] ∧
      ¬ ∀ calls, getConstants hundredMillionBuffer calls ⟨.constant, 0, 9, 0xFFFFFFFF⟩ =
        .ok (List.replicate calls (UInt32.ofNat (decimal (digitsAt hundredMillionBuffer 0)))) := by
  have evaluated : getConstants hundredMillionBuffer 1 ⟨.constant, 0, 9, 0xFFFFFFFF⟩ =
      .ok [0xFFFFFFFF] := by decide +kernel
  refine ⟨by decide +kernel, by decide +kernel, evaluated, ?_⟩
  intro always
  have first := evaluated.symm.trans (always 1)
  revert first
  decide +kernel

end Tokens

end CppInterpreter.MetaLexer
