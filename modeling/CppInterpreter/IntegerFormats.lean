import Mathlib.Algebra.Group.Nat.Defs
import Mathlib.Algebra.Ring.Int.Defs

/-!
# Integer formats

A format of truth values has the numbers zero and one. The other formats have a width,
with or without a sign, and represent one number of each residue class. A conversion into
a format of truth values tells zero from other numbers, and one into another format keeps
the residue class.
-/

namespace CppInterpreter.IntegerFormats

/-- The representations of integers. -/
inductive Format where
  | truth
  | unsigned (width : Nat)
  | signed (width : Nat)
deriving DecidableEq, Repr

/-- A format represents a number. -/
def Format.Fits : Format → Int → Prop
  | .truth, value => value = 0 ∨ value = 1
  | .unsigned width, value => 0 ≤ value ∧ value < 2 ^ width
  | .signed width, value => -2 ^ width ≤ value * 2 ∧ value * 2 < 2 ^ width

/-- The number that represents an integer in a format. -/
def Format.convert : Format → Int → Int
  | .truth, value => if value = 0 then 0 else 1
  | .unsigned width, value => value % 2 ^ width
  | .signed width, value => value.bmod (2 ^ width)

/-- A conversion yields a number of its format. -/
theorem fits_convert (format : Format) (value : Int) : format.Fits (format.convert value) := by
  cases format with
  | truth => simp only [Format.Fits, Format.convert]; split <;> simp
  | unsigned width =>
    have positive : (0 : Int) < 2 ^ width := Int.pow_pos (by decide)
    exact ⟨Int.emod_nonneg _ (Int.ne_of_gt positive), Int.emod_lt_of_pos _ positive⟩
  | signed width =>
    have positive : 0 < 2 ^ width := Nat.two_pow_pos width
    have lower := Int.le_bmod (x := value) positive
    have upper := Int.bmod_lt (x := value) positive
    simp only [Format.Fits, Format.convert]
    push_cast at lower upper
    omega

/-- A number of the format is represented by itself. -/
theorem convert_of_fits {format : Format} {value : Int} (fits : format.Fits value) :
    format.convert value = value := by
  cases format with
  | truth => rcases fits with rfl | rfl <;> rfl
  | unsigned width => exact Int.emod_eq_of_lt fits.1 fits.2
  | signed width =>
    obtain ⟨lower, upper⟩ := fits
    apply Int.bmod_eq_of_le_mul_two
    · push_cast
      exact lower
    · push_cast
      exact upper

/-- A number of a format. -/
structure Number (format : Format) where
  value : Int
  fits : format.Fits value

/-- Numbers of a format are equal when they are equal as integers. -/
@[ext] theorem Number.ext {format : Format} {one two : Number format} (same : one.value = two.value) :
    one = two := by
  cases one
  cases two
  simp_all

/-- The number that represents an integer. -/
def Number.ofInt (format : Format) (value : Int) : Number format :=
  ⟨format.convert value, fits_convert format value⟩

/-- Conversion between formats. -/
def Number.convert {source : Format} (target : Format) (number : Number source) : Number target :=
  .ofInt target number.value

/-- Conversion into the own format changes nothing. -/
@[simp] theorem Number.convert_self {format : Format} (number : Number format) :
    number.convert format = number :=
  Number.ext (convert_of_fits number.fits)

end CppInterpreter.IntegerFormats
