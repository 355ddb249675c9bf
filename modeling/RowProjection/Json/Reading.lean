import RowProjection.Json.Basic
import RowProjection.Json.Source

/-!
From JSON text to trees. Numbers are read with bounded effort: a significand of 64 bits, scaled
once by a power of ten in float arithmetic, so that floats are near the number written and not
always the nearest.
-/

namespace RowProjection.Json

open Number

/-- Appends a digit to a significand, unless it would exceed 64 bits. -/
def pushDigit? (significand : Nat) (digit : Char) : Option Nat :=
  let next := significand * 10 + (digit.toNat - '0'.toNat)
  if next < UInt64.size then some next else none

/-- The significand of the digits before the point, and how many of them were left out. -/
def wholeDigits (significand : Nat) : List Char → Nat × Nat
  | [] => (significand, 0)
  | digit :: rest =>
    match pushDigit? significand digit with
    | some next => wholeDigits next rest
    | none => (significand, rest.length + 1)

/-- The significand with the digits behind the point, and how many of them were taken. -/
def fractionDigits (significand : Nat) : List Char → Nat × Nat
  | [] => (significand, 0)
  | digit :: rest =>
    match pushDigit? significand digit with
    | some next =>
      let (final, taken) := fractionDigits next rest
      (final, taken + 1)
    | none => (significand, 0)

/-- A float divided by a power of ten, in steps of at most 308 tens. -/
def divideTens (float : Ratio) (tens : Nat) : Double :=
  let quotient (power : Nat) : Double :=
    Double.nearest false (float.div (Double.nearest false (.ofNat (Nat.pow 10 power))).magnitude)
  if tens ≤ 308 then quotient tens
  else if float.num = 0 then Double.nearest false float
  else divideTens (quotient 308).magnitude (tens - 308)
termination_by tens

/-- A significand scaled by a power of ten, if the float does not overflow. -/
def scale? (negative : Bool) (significand : Nat) (exponent : Int) : Option Double :=
  let float := Double.nearest false (.ofNat significand)
  if exponent < 0 then
    some ((divideTens float.magnitude exponent.natAbs).withSign negative)
  else if significand = 0 then some (float.withSign negative)
  else if 308 < exponent then none
  else
    let power := Double.nearest false (.ofNat (Nat.pow 10 exponent.natAbs))
    let product := Double.nearest false (float.magnitude.mul power.magnitude)
    if product.isFinite then some (product.withSign negative) else none

/-- The largest exponent that is counted, and the least. -/
def clampExponent (exponent : Int) : Int :=
  max Int32.minValue.toInt (min Int32.maxValue.toInt exponent)

/-- The number of a token. -/
def ofNumber? (token : NumberToken) : Option Json :=
  let (whole, dropped) := wholeDigits 0 token.whole
  let (significand, taken) := fractionDigits whole token.fraction
  let start : Int := dropped - taken
  match token.exponent with
  | some (down, digits) =>
    let power := Text.Digits.value digits
    if Int32.maxValue.toInt < power then
      if significand ≠ 0 ∧ ¬ down then none
      else some (double ((Double.nearest false (.ofNat 0)).withSign token.negative))
    else
      let exponent := clampExponent (if down then start - power else start + power)
      (scale? token.negative significand exponent).map double
  | none =>
    if dropped = 0 ∧ token.fraction = [] then
      if ¬ token.negative then some (integer significand)
      else if 0 < significand ∧ Int64.minValue.toInt ≤ -significand then
        some (integer (-significand))
      else some (double (Double.nearest true (.ofNat significand)))
    else (scale? token.negative significand start).map double

mutual

/-- The tree of a text taken apart. -/
def ofSource? : Source → Option Json
  | .null => some null
  | .boolean value => some (boolean value)
  | .number token => ofNumber? token
  | .string parts => (StringPart.text? parts).map string
  | .array items => (itemsOfSource? items).map array
  | .object members => (membersOfSource? members).map ofMembers

def itemsOfSource? : List Source → Option (List Json)
  | [] => some []
  | item :: rest => do
    let head ← ofSource? item
    let tail ← itemsOfSource? rest
    return head :: tail

def membersOfSource? : List (List StringPart × Source) → Option (List (String × Json))
  | [] => some []
  | (key, value) :: rest => do
    let name ← StringPart.text? key
    let head ← ofSource? value
    let tail ← membersOfSource? rest
    return (name, head) :: tail

end

/-- How many arrays and objects may be open at once. -/
def depthLimit : Nat := 127

/-- The tree of a text. -/
def read? (text : List Char) : Option Json := do
  let source ← Source.read? text
  if source.depth ≤ depthLimit then ofSource? source else none

end RowProjection.Json
