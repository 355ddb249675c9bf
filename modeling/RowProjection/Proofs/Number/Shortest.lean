import Mathlib.Data.List.DropRight
import Mathlib.Tactic.Linarith
import RowProjection.Number.Shortest
import RowProjection.Proofs.Number.Ratio
import RowProjection.Proofs.Text.Digits

/-! The shortest digits of a float. A grid as fine as seventeen digits has a point that rounds to
the float, so the search ends with one, and its digits begin with one that is not zero. -/

namespace RowProjection

namespace Number

/-- The mantissa of a float has one bit more than its fraction. -/
theorem FloatFormat.mantissa_lt {format : FloatFormat} {bits mantissa : Nat} {negative : Bool}
    {exponent : Int} (decoded : format.decode bits = .finite negative mantissa exponent) :
    mantissa < 2 ^ (format.fractionBits + 1) := by
  have fraction : bits % Nat.pow 2 format.fractionBits < 2 ^ format.fractionBits :=
    Nat.mod_lt _ (Nat.pow_pos (by decide))
  have whole : Nat.pow 2 format.fractionBits = 2 ^ format.fractionBits := rfl
  unfold decode at decoded
  dsimp only at decoded
  rw [Nat.pow_succ]
  split at decoded
  · split at decoded
    · cases decoded
    · cases decoded
  · split at decoded
    · cases decoded
      omega
    · cases decoded
      omega

/-- Digits that begin with one that is not zero. -/
structure PointedDigits.IsSignificant (number : PointedDigits) : Prop where
  nonempty : number.digits ≠ []
  areDigits : ∀ digit ∈ number.digits, digit.isDigit = true
  head : number.digits.head? ≠ some '0'

namespace RoundingInterval

variable {interval : RoundingInterval} {count : Nat} {power : Int} {halfUp : Bool}

/-- The ends and the value of an interval, as rational numbers. -/
def lowest (interval : RoundingInterval) : ℚ :=
  (Ratio.mk interval.low interval.den).toRat

def middle (interval : RoundingInterval) : ℚ :=
  (Ratio.mk interval.value interval.den).toRat

def highest (interval : RoundingInterval) : ℚ :=
  (Ratio.mk interval.high interval.den).toRat

theorem holds_of_between (positive : 0 < interval.den)
    (above : interval.lowest < count * 10 ^ power) (below : count * 10 ^ power < interval.highest) :
    interval.holds count power = true := by
  have scaled := Ratio.toRat_scaled count 10 power
  have denominator := Ratio.den_scaled_pos count (by decide : 0 < 10) power
  have left : interval.compareGrid count power interval.low = .gt := by
    apply (Ratio.compare_eq_gt denominator positive).mpr
    rw [scaled]
    exact above
  have right : interval.compareGrid count power interval.high = .lt := by
    apply (Ratio.compare_eq_lt denominator positive).mpr
    rw [scaled]
    exact below
  simp [holds, left, right]

theorem pos_of_holds (positive : 0 < interval.den) (above : 0 < interval.low)
    (held : interval.holds count power = true) : 0 < count := by
  by_contra zero
  have absent : count = 0 := by omega
  have left : interval.compareGrid count power interval.low = .lt := by
    apply (Ratio.compare_eq_lt (Ratio.den_scaled_pos count (by decide) power) positive).mpr
    rw [Ratio.toRat_scaled, absent, Nat.cast_zero, zero_mul]
    exact div_pos (Nat.cast_pos.mpr above) (Nat.cast_pos.mpr positive)
  simp [holds, left] at held

theorem holds_of_nearestOnGrid? (found : interval.nearestOnGrid? halfUp power = some count) :
    interval.holds count power = true := by
  unfold nearestOnGrid? at found
  dsimp only at found
  split at found
  · cases found
  · next lower _ =>
    cases found
    exact lower
  · next _ upper =>
    cases found
    exact upper
  · next lower upper =>
    split at found
    · cases found
      exact lower
    · cases found
      exact upper
    · cases found
      split
      · exact upper
      · exact lower

/-- A grid whose points are closer to each other than the low end is to the value has a point in the
interval. -/
theorem exists_nearestOnGrid? (positive : 0 < interval.den)
    (fine : (10 : ℚ) ^ power < interval.middle - interval.lowest)
    (below : interval.middle < interval.highest) :
    ∃ count, interval.nearestOnGrid? halfUp power = some count := by
  have step : (0 : ℚ) < 10 ^ power := zpow_pos (by norm_num) power
  let ratio := Ratio.div ⟨interval.value, interval.den⟩ (.scaled 1 10 power)
  have same : ratio.toRat = interval.middle / 10 ^ power := by
    rw [Ratio.toRat_div, Ratio.toRat_scaled, Nat.cast_one, one_mul, middle]
    norm_num
  have denominator : 0 < ratio.den := by
    refine Nat.mul_pos positive ?_
    cases power with
    | ofNat power => exact Nat.mul_pos Nat.one_pos (Nat.pow_pos (by decide))
    | negSucc before => exact Nat.one_pos
  have under := Ratio.floor_le denominator
  have above := Ratio.lt_floor_add_one denominator
  rw [same] at under above
  rw [le_div_iff₀ step] at under
  rw [div_lt_iff₀ step] at above
  have lower : interval.holds ratio.floor power = true :=
    holds_of_between positive (by linarith) (by linarith)
  unfold nearestOnGrid?
  dsimp only
  rw [lower]
  cases interval.holds (ratio.floor + 1) power with
  | false => exact ⟨_, rfl⟩
  | true =>
    dsimp only
    split
    · exact ⟨_, rfl⟩
    · exact ⟨_, rfl⟩
    · exact ⟨_, rfl⟩

/-- The search ends at a point in the interval, if there is one on any of its grids. -/
theorem holds_firstOnGrid {steps later : Nat} (within : later < steps)
    (found : ∃ count, interval.nearestOnGrid? halfUp (power - later) = some count) :
    interval.holds (interval.firstOnGrid halfUp steps power).1
      (interval.firstOnGrid halfUp steps power).2 = true := by
  induction steps generalizing power later with
  | zero => exact absurd within (Nat.not_lt_zero _)
  | succ steps ih =>
    rw [firstOnGrid]
    split
    · next count here => exact holds_of_nearestOnGrid? here
    · next missing =>
      cases later with
      | zero =>
        obtain ⟨count, found⟩ := found
        rw [Nat.cast_zero, Int.sub_zero, missing] at found
        cases found
      | succ later =>
        have next : power - (later + 1 : Nat) = power - 1 - later := by omega
        rw [next] at found
        exact ih (Nat.lt_of_succ_lt_succ within) found

/-- The point stands no further than right before the first digit of the value. -/
theorem pow_point_le (valuePositive : 0 < interval.value) (positive : 0 < interval.den) :
    (10 : ℚ) ^ (interval.point - 1) ≤ interval.middle := by
  have denominator : (0 : ℚ) < interval.den := Nat.cast_pos.mpr positive
  have numerator : (0 : ℚ) < interval.value := Nat.cast_pos.mpr valuePositive
  rw [middle, Ratio.toRat, le_div_iff₀ denominator]
  unfold point
  split
  · next large =>
    have whole := Nat.div_pos large positive
    have digits := Text.Digits.pow_le_of_length whole
    have length : 0 < (Text.Digits.ofNat (interval.value / interval.den)).length :=
      Nat.length_toDigits_pos
    have bound : 10 ^ ((Text.Digits.ofNat (interval.value / interval.den)).length - 1) *
        interval.den ≤ interval.value :=
      (Nat.mul_le_mul_right _ digits).trans (Nat.div_mul_le_self _ _)
    rw [← Nat.cast_pred length, zpow_natCast]
    exact_mod_cast bound
  · next small =>
    generalize lengthIs : (Text.Digits.ofNat (interval.den / interval.value)).length = length
    have digits := Text.Digits.lt_pow_length (interval.den / interval.value)
    rw [lengthIs, Nat.div_lt_iff_lt_mul valuePositive] at digits
    dsimp only
    split
    · have place : (1 - length - 1 : Int) = -length := by omega
      rw [place, zpow_neg, zpow_natCast, inv_mul_le_iff₀ (pow_pos (by norm_num) _)]
      exact_mod_cast digits.le
    · next exact =>
      have some : 0 < length := lengthIs ▸ Nat.length_toDigits_pos
      have place : (2 - length - 1 : Int) = -(length - 1 : Nat) := by omega
      rw [place, zpow_neg, zpow_natCast, inv_mul_le_iff₀ (pow_pos (by norm_num) _)]
      exact_mod_cast Nat.not_lt.mp exact

section Float

variable (format : FloatFormat) {mantissa : Nat} (exponent : Int)

/-- A quarter of the last place of a float, as a rational number. -/
def quarter (exponent : Int) : ℚ :=
  (Ratio.scaled 1 2 (exponent - 2)).toRat

theorem quarter_pos : 0 < quarter exponent := by
  rw [quarter, Ratio.toRat_scaled, Nat.cast_one, one_mul]
  exact zpow_pos (by norm_num) _

theorem den_ofFloat_pos (mantissa : Nat) : 0 < (ofFloat format mantissa exponent).den :=
  Ratio.den_scaled_pos 1 (by decide) (exponent - 2)

theorem num_step_pos : 0 < (Ratio.scaled 1 2 (exponent - 2)).num := by
  cases exponent - 2 with
  | ofNat power => exact Nat.mul_pos Nat.one_pos (Nat.pow_pos (by decide))
  | negSucc before => exact Nat.one_pos

theorem middle_ofFloat (mantissa : Nat) :
    (ofFloat format mantissa exponent).middle = 4 * mantissa * quarter exponent := by
  simp only [middle, ofFloat, quarter, Ratio.toRat]
  push_cast
  exact mul_div_assoc ..

theorem highest_ofFloat (mantissa : Nat) :
    (ofFloat format mantissa exponent).highest = (4 * mantissa + 2) * quarter exponent := by
  simp only [highest, ofFloat, quarter, Ratio.toRat]
  push_cast
  exact mul_div_assoc ..

/-- The low end is one or two quarters below the value. -/
theorem lowest_ofFloat (positive : 0 < mantissa) :
    0 < (ofFloat format mantissa exponent).low ∧
      quarter exponent ≤ (ofFloat format mantissa exponent).middle -
        (ofFloat format mantissa exponent).lowest := by
  have unit := quarter_pos exponent
  rw [middle_ofFloat]
  simp only [lowest, ofFloat, Ratio.toRat]
  generalize belowIs :
    (if mantissa = Nat.pow 2 format.fractionBits ∧ format.leastExponent < exponent then 1 else 2) =
      below
  have small : below = 1 ∨ below = 2 := by
    rw [← belowIs]
    split
    · exact .inl rfl
    · exact .inr rfl
  have fits : below ≤ 4 * mantissa := by omega
  refine ⟨Nat.mul_pos (by omega) (num_step_pos exponent), ?_⟩
  have low : (((4 * mantissa - below) * (Ratio.scaled 1 2 (exponent - 2)).num : Nat) : ℚ) /
      (Ratio.scaled 1 2 (exponent - 2)).den = (4 * mantissa - below) * quarter exponent := by
    rw [quarter, Ratio.toRat, Nat.cast_mul, Nat.cast_sub fits]
    push_cast
    exact mul_div_assoc ..
  rw [low]
  rcases small with rfl | rfl
  · push_cast
    linarith
  · push_cast
    linarith

/-- Seventeen digits are enough for floats with up to 53 bits. -/
theorem firstOnGrid_ofFloat (halfUp : Bool) (positive : 0 < mantissa)
    (bounded : mantissa < 2 ^ 53) :
    0 < ((ofFloat format mantissa exponent).firstOnGrid halfUp 18
      ((ofFloat format mantissa exponent).point - 1)).1 := by
  have unit := quarter_pos exponent
  have denominator := den_ofFloat_pos format exponent mantissa
  have value : 0 < (ofFloat format mantissa exponent).value :=
    Nat.mul_pos (by omega) (num_step_pos exponent)
  obtain ⟨low, gap⟩ := lowest_ofFloat format exponent positive
  have top := pow_point_le value denominator
  have fine : (10 : ℚ) ^ ((ofFloat format mantissa exponent).point - 1 - (17 : Nat)) <
      quarter exponent := by
    have large : (mantissa : ℚ) < 2 ^ 53 := by exact_mod_cast bounded
    rw [zpow_sub₀ (by norm_num), zpow_natCast, div_lt_iff₀ (by norm_num)]
    rw [middle_ofFloat] at top
    nlinarith
  have high : (ofFloat format mantissa exponent).middle <
      (ofFloat format mantissa exponent).highest := by
    rw [middle_ofFloat, highest_ofFloat]
    linarith
  exact pos_of_holds denominator low <| holds_firstOnGrid (by decide : 17 < 18) <|
    exists_nearestOnGrid? denominator (fine.trans_le gap) high

/-- The digits of a float that is not zero begin with one that is not zero. -/
theorem isSignificant_shortest (halfUp : Bool) (positive : 0 < mantissa)
    (bounded : mantissa < 2 ^ 53) :
    ((ofFloat format mantissa exponent).shortest halfUp).IsSignificant := by
  have count := firstOnGrid_ofFloat format exponent halfUp positive bounded
  unfold shortest
  generalize (ofFloat format mantissa exponent).firstOnGrid halfUp 18 _ = found at count
  obtain ⟨number, power⟩ := found
  have head : (Text.Digits.ofNat number).head? ≠ some '0' := Text.Digits.head?_ofNat count
  have trimmed : (Text.Digits.ofNat number).rdropWhile (· == '0') <+: Text.Digits.ofNat number :=
    List.rdropWhile_prefix _ _
  have some : (Text.Digits.ofNat number).rdropWhile (· == '0') ≠ [] := by
    intro zeros
    rw [List.rdropWhile_eq_nil_iff] at zeros
    cases digits : Text.Digits.ofNat number with
    | nil => exact Nat.toDigits_ne_nil digits
    | cons first rest =>
      rw [digits] at head zeros
      exact head (congrArg Option.some (beq_iff_eq.mp (zeros first (List.mem_cons_self ..))))
  refine ⟨some, fun digit member => ?_, ?_⟩
  · exact Text.Digits.isDigit_of_mem_ofNat (trimmed.subset member)
  · intro zero
    have front : ['0'] <+: Text.Digits.ofNat number :=
      (List.singleton_prefix_iff_head?_eq_some.mpr zero).trans trimmed
    exact head (List.singleton_prefix_iff_head?_eq_some.mp front)

end Float

end RoundingInterval

end Number

end RowProjection
