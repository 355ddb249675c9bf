import RowProjection.Number.Floating
import RowProjection.Text.Digits

/-!
The shortest decimal digits of a float: the fewest digits that lie in the interval of numbers
rounding to it, and of those the nearest to it.
-/

namespace RowProjection.Number

/-- Decimal digits behind a point: `digits = [d, e, f]` with `point = p` is `0.def * 10 ^ p`. -/
structure PointedDigits where
  digits : List Char
  point : Int
  deriving DecidableEq, Repr

/-- The numbers that round to one float, over the common denominator `den`. The ends belong to the
interval exactly when `closed` holds. -/
structure RoundingInterval where
  low : Nat
  value : Nat
  high : Nat
  den : Nat
  closed : Bool
  deriving DecidableEq, Repr

namespace RoundingInterval

/-- The interval of `mantissa * 2 ^ exponent`. Its ends are the midpoints to the neighbouring
floats; below a power of two the neighbour is half as far away. -/
def ofFloat (format : FloatFormat) (mantissa : Nat) (exponent : Int) : RoundingInterval :=
  let step := Ratio.scaled 1 2 (exponent - 2)
  let below :=
    if mantissa = Nat.pow 2 format.fractionBits ∧ format.leastExponent < exponent then 1 else 2
  { low := (4 * mantissa - below) * step.num
    value := 4 * mantissa * step.num
    high := (4 * mantissa + 2) * step.num
    den := step.den
    closed := mantissa % 2 == 0 }

variable (interval : RoundingInterval)

/-- The power of ten just above the value: `10 ^ (point - 1) ≤ value < 10 ^ point`. -/
def point : Int :=
  if interval.den ≤ interval.value then
    (Text.Digits.ofNat (interval.value / interval.den)).length
  else
    let length := (Text.Digits.ofNat (interval.den / interval.value)).length
    if Nat.pow 10 (length - 1) * interval.value < interval.den then 1 - length else 2 - length

/-- The fraction `count * 10 ^ power`, compared with the fraction `num / den` of the interval. -/
def compareGrid (count : Nat) (power : Int) (num : Nat) : Ordering :=
  (Ratio.scaled count 10 power).compare ⟨num, interval.den⟩

/-- Whether `count * 10 ^ power` rounds to the float. -/
def holds (count : Nat) (power : Int) : Bool :=
  let above := interval.compareGrid count power interval.low
  let below := interval.compareGrid count power interval.high
  if interval.closed then above != .lt && below != .gt else above == .gt && below == .lt

/-- The point of the grid `10 ^ power` that stands for the float, if one rounds to it: of two, the
nearer; half way between them, the upper one where `halfUp` holds and else the even one. -/
def nearestOnGrid? (halfUp : Bool) (power : Int) : Option Nat :=
  let lower := (Ratio.div ⟨interval.value, interval.den⟩ (.scaled 1 10 power)).floor
  match interval.holds lower power, interval.holds (lower + 1) power with
  | false, false => none
  | true, false => some lower
  | false, true => some (lower + 1)
  | true, true =>
    match (Ratio.scaled (2 * lower + 1) 10 power).compare ⟨2 * interval.value, interval.den⟩ with
    | .gt => some lower
    | .lt => some (lower + 1)
    | .eq => some (if halfUp || lower % 2 == 1 then lower + 1 else lower)

/-- The first grid with a point that rounds to the float, from `power` down. -/
def firstOnGrid (halfUp : Bool) : Nat → Int → Nat × Int
  | 0, power => (0, power)
  | steps + 1, power =>
    match interval.nearestOnGrid? halfUp power with
    | some count => (count, power)
    | none => firstOnGrid halfUp steps (power - 1)

/-- The shortest digits. Seventeen digits tell any two floats of 64 bits apart, so eighteen grids
are enough. -/
def shortest (halfUp : Bool) : PointedDigits :=
  let (count, power) := interval.firstOnGrid halfUp 18 (interval.point - 1)
  let digits := Text.Digits.ofNat count
  { digits := (digits.reverse.dropWhile (· == '0')).reverse
    point := power + digits.length }

end RoundingInterval

end RowProjection.Number
