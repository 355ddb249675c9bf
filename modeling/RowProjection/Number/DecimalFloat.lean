import RowProjection.Number.Decimal
import RowProjection.Number.Floating

/-!
Between decimals and floats. A float becomes a decimal by turning its powers of two into powers of
five within 96 bits, and then giving up the places that its precision does not vouch for.
-/

namespace RowProjection.Number.Decimal

/-- Turns `2 ^ -count` into `5 ^ count` and places: halving an even mantissa, multiplying an odd
one by five, which takes a place, and halving with loss where that would exceed 96 bits. The second
part counts the places. -/
def absorbHalves : Nat → Nat × Nat → Nat × Nat
  | 0, current => current
  | count + 1, (mantissa, places) =>
    if mantissa % 2 = 0 then absorbHalves count (mantissa / 2, places)
    else if mantissa * 5 < mantissaLimit then absorbHalves count (mantissa * 5, places + 1)
    else absorbHalves count (mantissa / 2, places)

/-- A tenth of the mantissa, a half rounded up. -/
def tenth (mantissa : Nat) : Nat :=
  mantissa / 10 + (if 5 ≤ mantissa % 10 then 1 else 0)

/-- Gives up `count` places, starting at `scale`. A mantissa that vanishes leaves a plain zero. -/
def dropPlaces : Nat → Nat × Nat → Nat × Nat
  | 0, current => current
  | count + 1, (mantissa, scale) =>
    if mantissa / 10 = 0 then (0, 0) else dropPlaces count (tenth mantissa, scale - 1)

/-- Gives up places while the mantissa is not below `limit`. -/
def dropBelow (limit : Nat) : Nat → Nat → Nat × Nat
  | 0, mantissa => (mantissa, 0)
  | scale + 1, mantissa =>
    if limit ≤ mantissa then dropBelow limit scale (tenth mantissa) else (mantissa, scale + 1)

/-- Gives up zeros at the end of the fraction. -/
def dropZeros : Nat → Nat → Nat × Nat
  | 0, mantissa => (mantissa, 0)
  | scale + 1, mantissa =>
    if mantissa % 10 = 0 then dropZeros scale (mantissa / 10) else (mantissa, scale + 1)

/-- The decimal of `mantissa * 2 ^ exponent`. Integers are exact, and from `2 ^ 96` on there is
none; a fraction keeps a mantissa below `limit` where it has places. -/
def ofBinary? (negative : Bool) (limit mantissa : Nat) (exponent : Int) : Option Decimal :=
  if 0 ≤ exponent then ofParts? negative (mantissa * Nat.pow 2 exponent.natAbs) 0
  else
    let (mantissa, places) := absorbHalves exponent.natAbs (mantissa, 0)
    let (mantissa, scale) := dropPlaces (places - 28) (mantissa, places)
    let (mantissa, scale) := dropBelow limit scale mantissa
    let (mantissa, scale) := dropZeros scale mantissa
    ofParts? negative mantissa scale

/-- The decimal of a float, for a format of the given precision. -/
def ofDatum? (limit : Nat) : FloatDatum → Option Decimal
  | .finite negative mantissa exponent => ofBinary? negative limit mantissa exponent
  | _ => none

def ofSingle? (number : Single) : Option Decimal :=
  ofDatum? 0x1000000 number.datum

def ofDouble? (number : Double) : Option Decimal :=
  ofDatum? 0x10000000000000 number.datum

/-- The float of a decimal. An integer is rounded once, and its zero is positive. Otherwise whole
part and fraction are rounded and added, and the sum is rounded again at the scale. -/
def toDouble (number : Decimal) : Double :=
  if number.scale = 0 then Double.ofInt number.truncated
  else
    let unit := Nat.pow 10 number.scale
    let rounded (ratio : Ratio) : Ratio := (Double.nearest false ratio).magnitude
    let whole := rounded (.ofNat (number.mantissa / unit))
    let scale := rounded (.ofNat unit)
    let fraction := rounded (.div (rounded (.ofNat (number.mantissa % unit))) scale)
    if fraction.num = 0 then Double.nearest number.negative whole
    else
      let sum := rounded (whole.add fraction)
      let scaled := (rounded (sum.mul scale)).nearestUp
      Double.nearest number.negative (.div (rounded (.ofNat scaled)) scale)

end RowProjection.Number.Decimal
