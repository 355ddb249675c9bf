import RowProjection.Number.Decimal
import RowProjection.Number.Ratio
import RowProjection.Text.Digits

/-!
Decimals as text. Writing shows every place of the scale and the sign also of zero. Reading rounds
digits that do not fit, half up at the first digit left out; behind that one only digits and
separators may stand.
-/

namespace RowProjection.Number.Decimal

def chars (number : Decimal) : List Char :=
  let digits := Text.Digits.padded (number.scale + 1) number.mantissa
  let whole := digits.length - number.scale
  let fraction := if number.scale = 0 then [] else '.' :: digits.drop whole
  (if number.negative then ['-'] else []) ++ digits.take whole ++ fraction

def text (number : Decimal) : String :=
  String.ofList number.chars

/-- How far a decimal has been read: the digits so far, how many of them stand behind the point,
whether the point and whether a digit was met. -/
structure Reading where
  mantissa : Nat
  scale : Nat
  afterPoint : Bool
  hasDigit : Bool
  deriving DecidableEq, Repr

namespace Reading

def start : Reading :=
  ⟨0, 0, false, false⟩

/-- Ends the reading. A zero drops its sign. -/
def finish? (reading : Reading) (negative : Bool) : Option Decimal :=
  if reading.hasDigit then
    ofParts? (negative && reading.mantissa != 0) reading.mantissa reading.scale
  else none

/-- The digit that decides on rounding, the first of those left out. A separator in its place
counts as zero, and so does the end of the text. -/
def roundingDigit? (left : List Char) : Option Nat :=
  if left.all fun char => char.isDigit || char == '_' then
    match left with
    | char :: _ => some (if char.isDigit then char.toNat - '0'.toNat else 0)
    | [] => some 0
  else none

/-- Ends the reading before characters that no longer fit. Where rounding up exceeds 96 bits, one
more place is given up; an integer has none to give. -/
def round? (reading : Reading) (negative : Bool) (left : List Char) : Option Decimal :=
  match roundingDigit? left with
  | none => none
  | some digit =>
    if digit < 5 then reading.finish? negative
    else
      let raised := reading.mantissa + 1
      if raised < mantissaLimit then { reading with mantissa := raised }.finish? negative
      else if reading.scale = 0 then none
      else
        { reading with mantissa := (raised + 4) / 10, scale := reading.scale - 1 }.finish? negative

/-- From here on a number counts as long: it may exceed a word of 64 bits with its next digit. The
margin below that bound is the largest byte. -/
def longLimit : Nat := (UInt64.size - 1) / 10 - 255

/-- Ends the reading behind the last place that a decimal has. Separators in front of the deciding
digit are passed over if the digits before the last one made a long number. -/
def roundLastPlace? (reading : Reading) (negative : Bool) (left : List Char) : Option Decimal :=
  if longLimit ≤ reading.mantissa / 10 then
    reading.round? negative (left.dropWhile (· == '_'))
  else reading.round? negative left

/-- Takes the next digit, or `none` where the mantissa would exceed 96 bits. -/
def push? (reading : Reading) (char : Char) : Option Reading :=
  let mantissa := reading.mantissa * 10 + (char.toNat - '0'.toNat)
  if mantissa < mantissaLimit then
    some { reading with
      mantissa
      scale := if reading.afterPoint then reading.scale + 1 else reading.scale
      hasDigit := true }
  else none

end Reading

/-- Reads digits, one point among them, and separators behind the first digit. -/
def readFrom (negative : Bool) (reading : Reading) : List Char → Option Decimal
  | [] => reading.finish? negative
  | char :: rest =>
    if reading.afterPoint ∧ 28 ≤ reading.scale then
      reading.roundLastPlace? negative (char :: rest)
    else if char.isDigit then
      match reading.push? char with
      | some next => readFrom negative next rest
      | none => if reading.afterPoint then reading.round? negative (char :: rest) else none
    else if char = '.' ∧ ¬ reading.afterPoint then
      readFrom negative { reading with afterPoint := true } rest
    else if char = '_' ∧ reading.hasDigit then readFrom negative reading rest
    else none

/-- A decimal without exponent: an optional sign, then digits with an optional point. -/
def readPlain? : List Char → Option Decimal
  | '-' :: rest => readFrom true .start rest
  | '+' :: rest => readFrom false .start rest
  | unsigned => readFrom false .start unsigned

/-- Divides by a power of ten of at most 28 by taking more places. Where these exceed 28, the last
ones are given up, half up. -/
def shiftDown? (number : Decimal) (power : Nat) : Option Decimal :=
  if 28 < power then none
  else if number.scale + power ≤ 28 then
    ofParts? number.negative number.mantissa (number.scale + power)
  else
    let excess := Nat.pow 10 (number.scale + power - 28)
    ofParts? number.negative (Ratio.mk number.mantissa excess).nearestUp 28

/-- Multiplies by a power of ten: gives up places first, and has at most 28 zeros to append where
these are not enough. -/
def shiftUp? (number : Decimal) (power : Nat) : Option Decimal :=
  if power ≤ number.scale then ofParts? number.negative number.mantissa (number.scale - power)
  else if 28 < power then none
  else ofParts? number.negative (number.mantissa * Nat.pow 10 (power - number.scale)) 0

/-- Digits behind an optional plus sign. -/
def readPower? : List Char → Option Nat
  | '+' :: digits => if Text.Digits.areAll digits then some (Text.Digits.value digits) else none
  | digits => if Text.Digits.areAll digits then some (Text.Digits.value digits) else none

/-- Applies an exponent, written behind the mark that separates it. -/
def applyExponent? (number : Decimal) : List Char → Option Decimal
  | '-' :: rest => (readPower? rest).bind number.shiftDown?
  | rest => (readPower? rest).bind number.shiftUp?

/-- The decimal that a text stands for, with an optional exponent. -/
def read? (text : List Char) : Option Decimal :=
  match text.span fun char => char != 'e' && char != 'E' with
  | (plain, []) => readPlain? plain
  | (plain, _ :: exponent) => (readPlain? plain).bind (applyExponent? · exponent)

end RowProjection.Number.Decimal
