import RowProjection.Number.Ratio

/-!
Binary floating-point numbers, stored as their bits. Bits are decoded to an exact value, and an
exact value is rounded to the nearest float, ties to the even mantissa.
-/

namespace RowProjection.Number

/-- A binary format: from the top, a sign bit, the biased exponent and the fraction. -/
structure FloatFormat where
  exponentBits : Nat
  fractionBits : Nat
  deriving DecidableEq, Repr

/-- What the bits of a float stand for. A finite float is `mantissa * 2 ^ exponent`. -/
inductive FloatDatum where
  | nan (negative : Bool) (payload : Nat)
  | infinite (negative : Bool)
  | finite (negative : Bool) (mantissa : Nat) (exponent : Int)
  deriving DecidableEq, Repr

namespace FloatFormat

def single : FloatFormat := ⟨8, 23⟩

def double : FloatFormat := ⟨11, 52⟩

variable (format : FloatFormat)

/-- The exponent of the last place of the smallest floats. -/
def leastExponent : Int :=
  2 - Nat.pow 2 (format.exponentBits - 1) - format.fractionBits

/-- The bits of positive infinity: all exponent bits set, no fraction. -/
def infinityBits : Nat :=
  (Nat.pow 2 format.exponentBits - 1) * Nat.pow 2 format.fractionBits

/-- The sign bit alone. -/
def signBits (negative : Bool) : Nat :=
  if negative then Nat.pow 2 (format.exponentBits + format.fractionBits) else 0

def decode (bits : Nat) : FloatDatum :=
  let negative := bits / Nat.pow 2 (format.exponentBits + format.fractionBits) % 2 == 1
  let exponent := bits / Nat.pow 2 format.fractionBits % Nat.pow 2 format.exponentBits
  let fraction := bits % Nat.pow 2 format.fractionBits
  if exponent = Nat.pow 2 format.exponentBits - 1 then
    if fraction = 0 then .infinite negative else .nan negative fraction
  else if exponent = 0 then .finite negative fraction format.leastExponent
  else
    .finite negative (Nat.pow 2 format.fractionBits + fraction)
      (format.leastExponent + (exponent - 1))

/-- The bits of the float nearest to a fraction; above the greatest float this is infinity. The
mantissa is cut at the place that leaves it the bits of the format, or at the least exponent. A
mantissa that rounds up to one bit more carries into the exponent by plain addition. -/
def nearestBits (ratio : Ratio) : Nat :=
  let units := ratio.div (Ratio.scaled 1 2 format.leastExponent)
  let cut := units.floor.log2 - format.fractionBits
  let mantissa := (Ratio.mk units.num (units.den * Nat.pow 2 cut)).nearestEven
  min (cut * Nat.pow 2 format.fractionBits + mantissa) format.infinityBits

/-- The bits of the float nearest to a signed fraction. -/
def nearest (negative : Bool) (ratio : Ratio) : Nat :=
  format.signBits negative + format.nearestBits ratio

/-- The bits of a quiet NaN that keeps the leading bits of a payload written in another format. -/
def nanBits (negative : Bool) (payloadFormat : FloatFormat) (payload : Nat) : Nat :=
  let kept := payload * Nat.pow 2 format.fractionBits / Nat.pow 2 payloadFormat.fractionBits
  let quiet := Nat.pow 2 (format.fractionBits - 1)
  format.signBits negative + format.infinityBits + (if kept < quiet then kept + quiet else kept)

/-- The bits of the float of this format nearest to a float of another one. -/
def convertBits (source : FloatFormat) (bits : Nat) : Nat :=
  match source.decode bits with
  | .nan negative payload => format.nanBits negative source payload
  | .infinite negative => format.signBits negative + format.infinityBits
  | .finite negative mantissa exponent =>
    format.nearest negative (Ratio.scaled mantissa 2 exponent)

end FloatFormat

namespace FloatDatum

/-- The float as a signed fraction, if it is finite. -/
def ratio? : FloatDatum → Option (Bool × Ratio)
  | .finite negative mantissa exponent => some (negative, Ratio.scaled mantissa 2 exponent)
  | _ => none

/-- Equality of numbers: the zeros are equal, and a NaN equals nothing. -/
def sameNumber : FloatDatum → FloatDatum → Bool
  | .infinite left, .infinite right => left == right
  | .finite leftNegative leftMantissa leftExponent,
      .finite rightNegative rightMantissa rightExponent =>
    (leftMantissa == 0 && rightMantissa == 0) ||
      (leftNegative == rightNegative && leftMantissa == rightMantissa &&
        leftExponent == rightExponent)
  | _, _ => false

/-- The integer part, if it fits 64 signed bits. -/
def truncated? : FloatDatum → Option Int
  | .finite negative mantissa exponent =>
    let whole := (Ratio.scaled mantissa 2 exponent).floor
    let number : Int := if negative then -whole else whole
    if Int64.minValue.toInt ≤ number ∧ number ≤ Int64.maxValue.toInt then some number else none
  | _ => none

end FloatDatum

/-- A float of 32 bits. -/
structure Single where
  bits : UInt32
  deriving DecidableEq, Repr

/-- A float of 64 bits. -/
structure Double where
  bits : UInt64
  deriving DecidableEq, Repr

namespace Single

def ofBits (bits : Nat) : Single :=
  ⟨UInt32.ofNat bits⟩

def datum (number : Single) : FloatDatum :=
  FloatFormat.single.decode number.bits.toNat

/-- The same number with 64 bits. -/
def widen (number : Single) : Double :=
  ⟨UInt64.ofNat (FloatFormat.double.convertBits .single number.bits.toNat)⟩

end Single

namespace Double

def ofBits (bits : Nat) : Double :=
  ⟨UInt64.ofNat bits⟩

def datum (number : Double) : FloatDatum :=
  FloatFormat.double.decode number.bits.toNat

/-- The nearest float of 32 bits. -/
def narrow (number : Double) : Single :=
  .ofBits (FloatFormat.single.convertBits .double number.bits.toNat)

/-- The float nearest to a signed fraction. -/
def nearest (negative : Bool) (ratio : Ratio) : Double :=
  .ofBits (FloatFormat.double.nearest negative ratio)

/-- The float nearest to an integer. -/
def ofInt (number : Int) : Double :=
  nearest (number < 0) (.ofNat number.natAbs)

def isFinite (number : Double) : Bool :=
  number.datum.ratio?.isSome

/-- The magnitude of a finite float; infinities and NaN have none and read as zero. -/
def magnitude (number : Double) : Ratio :=
  match number.datum.ratio? with
  | some (_, ratio) => ratio
  | none => .ofNat 0

/-- The same magnitude with the given sign. -/
def withSign (negative : Bool) (number : Double) : Double :=
  let magnitude := number.bits.toNat % 0x8000000000000000
  .ofBits (FloatFormat.double.signBits negative + magnitude)

end Double

end RowProjection.Number
