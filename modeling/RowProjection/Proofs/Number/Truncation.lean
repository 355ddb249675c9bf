import Mathlib.Data.Rat.Floor
import RowProjection.Number.Decimal

namespace RowProjection.Number

/-- The integer between a number and zero that is nearest to the number. -/
def towardZero (number : ℚ) : ℤ :=
  if number < 0 then ⌈number⌉ else ⌊number⌋

theorem towardZero_intCast (number : ℤ) : towardZero number = number := by
  simp [towardZero]

theorem towardZero_neg {number : ℚ} (nonnegative : 0 ≤ number) :
    towardZero (-number) = -⌊number⌋ := by
  rw [towardZero]
  split
  · exact Int.ceil_neg
  · next zero =>
    have zero : number = 0 := by linarith
    simp [zero]

namespace Decimal

/-- The rational number that a decimal stands for. -/
def toRat (number : Decimal) : ℚ :=
  let magnitude : ℚ := number.mantissa / 10 ^ number.scale
  if number.negative then -magnitude else magnitude

theorem floor_magnitude (number : Decimal) :
    ⌊(number.mantissa / 10 ^ number.scale : ℚ)⌋ =
      (number.mantissa / Nat.pow 10 number.scale : Nat) := by
  have unit : (10 ^ number.scale : ℚ) = (Nat.pow 10 number.scale : Nat) := by simp
  rw [unit]
  exact Rat.floor_natCast_div_natCast _ _

theorem truncated_eq_towardZero (number : Decimal) :
    number.truncated = towardZero number.toRat := by
  have nonnegative : (0 : ℚ) ≤ number.mantissa / 10 ^ number.scale := by positivity
  cases sign : number.negative with
  | true =>
    simp only [truncated, toRat, sign, if_true]
    rw [towardZero_neg nonnegative, floor_magnitude]
  | false =>
    simp only [truncated, toRat, sign, Bool.false_eq_true, if_false]
    rw [towardZero, if_neg (not_lt.mpr nonnegative), floor_magnitude]

/-- Integers of at most 96 bits are decimals. -/
theorem exists_ofInt? {number : Int} (small : number.natAbs < mantissaLimit) :
    ∃ decimal, ofInt? number = some decimal ∧ decimal.toRat = number := by
  refine ⟨⟨number < 0, number.natAbs, 0, small, by decide⟩, dif_pos ⟨small, by decide⟩, ?_⟩
  have magnitude : ((number.natAbs : ℕ) : ℚ) = |(number : ℚ)| := by
    rw [← Int.cast_natCast, Int.natCast_natAbs, Int.cast_abs]
  simp only [toRat, pow_zero, div_one, magnitude, decide_eq_true_eq]
  split
  · next negative => rw [abs_of_neg (Int.cast_lt_zero.mpr negative), neg_neg]
  · next nonnegative => rw [abs_of_nonneg (Int.cast_nonneg (not_lt.mp nonnegative))]

end Decimal

end RowProjection.Number
