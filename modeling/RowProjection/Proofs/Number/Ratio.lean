import Mathlib.Algebra.Order.Field.Power
import Mathlib.Data.Rat.Cast.Order
import Mathlib.Tactic.FieldSimp
import RowProjection.Number.Ratio

namespace RowProjection.Number.Ratio

/-- The rational number that a fraction stands for. -/
def toRat (ratio : Ratio) : ℚ :=
  ratio.num / ratio.den

theorem toRat_scaled (number base : Nat) (power : Int) :
    (scaled number base power).toRat = number * (base : ℚ) ^ power := by
  cases power with
  | ofNat power => simp [toRat, scaled]
  | negSucc before => simp [toRat, scaled, zpow_negSucc, div_eq_mul_inv]

theorem den_scaled_pos (number : Nat) {base : Nat} (positive : 0 < base) (power : Int) :
    0 < (scaled number base power).den := by
  cases power with
  | ofNat power => exact Nat.one_pos
  | negSucc before => exact Nat.pow_pos positive

variable {left right ratio : Ratio}

private theorem toRat_lt_iff (leftPositive : 0 < left.den) (rightPositive : 0 < right.den) :
    left.toRat < right.toRat ↔ left.num * right.den < right.num * left.den := by
  have leftCast : (0 : ℚ) < left.den := Nat.cast_pos.mpr leftPositive
  have rightCast : (0 : ℚ) < right.den := Nat.cast_pos.mpr rightPositive
  rw [toRat, toRat, div_lt_div_iff₀ leftCast rightCast]
  exact_mod_cast Iff.rfl

theorem compare_eq_lt (leftPositive : 0 < left.den) (rightPositive : 0 < right.den) :
    left.compare right = .lt ↔ left.toRat < right.toRat := by
  rw [toRat_lt_iff leftPositive rightPositive]
  exact Nat.compare_eq_lt

theorem compare_eq_gt (leftPositive : 0 < left.den) (rightPositive : 0 < right.den) :
    left.compare right = .gt ↔ right.toRat < left.toRat := by
  rw [toRat_lt_iff rightPositive leftPositive]
  exact Nat.compare_eq_gt

theorem toRat_div : (left.div right).toRat = left.toRat / right.toRat := by
  simp only [toRat, div, Nat.cast_mul]
  rw [div_div_div_eq]

theorem floor_le (positive : 0 < ratio.den) : (ratio.floor : ℚ) ≤ ratio.toRat := by
  rw [toRat, le_div_iff₀ (Nat.cast_pos.mpr positive)]
  exact_mod_cast Nat.div_mul_le_self ratio.num ratio.den

theorem lt_floor_add_one (positive : 0 < ratio.den) : ratio.toRat < ratio.floor + 1 := by
  rw [toRat, div_lt_iff₀ (Nat.cast_pos.mpr positive)]
  exact_mod_cast Nat.lt_mul_of_div_lt (Nat.lt_succ_self _) positive

end RowProjection.Number.Ratio
