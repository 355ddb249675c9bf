/-!
Decimal numbers with a 96-bit mantissa and up to 28 places behind the point. Sign and scale belong
to the representation: `1.50` and `1.5`, and the two zeros, are different values that are equal as
numbers.
-/

namespace RowProjection.Number

/-- What a mantissa of 96 bits stays below. -/
def mantissaLimit : Nat := 0x1000000000000000000000000

/-- `(-1)^negative * mantissa / 10 ^ scale`. -/
structure Decimal where
  negative : Bool
  mantissa : Nat
  scale : Nat
  mantissa_lt : mantissa < mantissaLimit := by decide
  scale_le : scale ≤ 28 := by decide
  deriving DecidableEq, Repr

namespace Decimal

/-- The decimal with these parts, if mantissa and scale are in range. -/
def ofParts? (negative : Bool) (mantissa scale : Nat) : Option Decimal :=
  if inRange : mantissa < mantissaLimit ∧ scale ≤ 28 then
    some ⟨negative, mantissa, scale, inRange.1, inRange.2⟩
  else none

/-- An integer of at most 96 bits as a decimal. -/
def ofInt? (number : Int) : Option Decimal :=
  ofParts? (number < 0) number.natAbs 0

/-- Equality of numbers: sign and scale of zero and trailing zeros do not count. -/
def sameNumber (left right : Decimal) : Bool :=
  let leftScaled := left.mantissa * Nat.pow 10 right.scale
  let rightScaled := right.mantissa * Nat.pow 10 left.scale
  leftScaled == rightScaled && (leftScaled == 0 || left.negative == right.negative)

/-- The number without its fraction. -/
def truncated (number : Decimal) : Int :=
  let whole := number.mantissa / Nat.pow 10 number.scale
  if number.negative then -whole else whole

theorem ofParts?_self (number : Decimal) :
    ofParts? number.negative number.mantissa number.scale = some number :=
  dif_pos ⟨number.mantissa_lt, number.scale_le⟩

end Decimal

end RowProjection.Number
