import RowProjection.Number.Shortest

namespace RowProjection.Number

/-- How a float is written once its digits are known. -/
structure FloatLayout where
  /-- The places of the point that are written in full and not with an exponent. -/
  positional : Int → Bool
  /-- Whether a whole number keeps `.0`. -/
  keepsFraction : Bool
  /-- Whether digits half way between two candidates go up, and not to the even one. -/
  halfUp : Bool

namespace FloatLayout

/-- Plain text never has an exponent, and whole numbers have no point. -/
def plain : FloatLayout :=
  ⟨fun _ => true, false, true⟩

/-- JSON tokens of 64-bit floats are written in full from 1e-5 up to 1e16. -/
def jsonDouble : FloatLayout :=
  ⟨fun point => -5 < point && point ≤ 16, true, false⟩

/-- JSON tokens of 32-bit floats are written in full from 1e-6 up to 1e13. -/
def jsonSingle : FloatLayout :=
  ⟨fun point => -6 < point && point ≤ 13, true, false⟩

variable (layout : FloatLayout)

def zero : List Char :=
  if layout.keepsFraction then ['0', '.', '0'] else ['0']

/-- Digits around their point. -/
def inFull (number : PointedDigits) : List Char :=
  let digits := number.digits
  if number.point ≤ 0 then
    '0' :: '.' :: (List.replicate number.point.natAbs '0' ++ digits)
  else if digits.length ≤ number.point then
    digits ++ List.replicate (number.point.toNat - digits.length) '0' ++
      (if layout.keepsFraction then ['.', '0'] else [])
  else digits.take number.point.toNat ++ '.' :: digits.drop number.point.toNat

/-- One digit, the others behind a point, and a signed exponent. -/
def withExponent (number : PointedDigits) : List Char :=
  let exponent := number.point - 1
  let fraction := match number.digits.drop 1 with
    | [] => []
    | rest => '.' :: rest
  number.digits.take 1 ++ fraction ++
    'e' :: (if exponent < 0 then '-' else '+') :: Text.Digits.ofNat exponent.natAbs

/-- A finite float. -/
def writeFinite (format : FloatFormat) (negative : Bool) (mantissa : Nat) (exponent : Int) :
    List Char :=
  let sign := if negative then ['-'] else []
  if mantissa = 0 then sign ++ layout.zero
  else
    let number := (RoundingInterval.ofFloat format mantissa exponent).shortest layout.halfUp
    sign ++ (if layout.positional number.point then layout.inFull number
      else withExponent number)

end FloatLayout

namespace FloatDatum

/-- The plain text of a float. -/
def plain (format : FloatFormat) : FloatDatum → List Char
  | .nan _ _ => ['N', 'a', 'N']
  | .infinite negative => if negative then ['-', 'i', 'n', 'f'] else ['i', 'n', 'f']
  | .finite negative mantissa exponent =>
    FloatLayout.plain.writeFinite format negative mantissa exponent

/-- The JSON token of a float. Infinities and NaN have no number and are written as `null`. -/
def json (format : FloatFormat) (layout : FloatLayout) : FloatDatum → List Char
  | .finite negative mantissa exponent =>
    layout.writeFinite format negative mantissa exponent
  | _ => ['n', 'u', 'l', 'l']

end FloatDatum

namespace Single

def text (number : Single) : String :=
  String.ofList (number.datum.plain .single)

def json (number : Single) : List Char :=
  number.datum.json .single .jsonSingle

end Single

namespace Double

def text (number : Double) : String :=
  String.ofList (number.datum.plain .double)

def json (number : Double) : List Char :=
  number.datum.json .double .jsonDouble

/-- `digits * 10 ^ exponent`, rounded to the nearest float. Numbers far outside the range of the
format are told apart by their number of digits alone. -/
def ofDecimal (negative : Bool) (digits : Nat) (exponent : Int) : Double :=
  let places := (Text.Digits.ofNat digits).length + exponent
  if digits = 0 ∨ places < -400 then nearest negative (.ofNat 0)
  else if 400 < places then
    .ofBits (FloatFormat.double.signBits negative + FloatFormat.double.infinityBits)
  else nearest negative (.scaled digits 10 exponent)

/-- The exponent behind the digits: nothing, or `e` and a signed number up to the end. -/
def readExponent? : List Char → Option Int
  | [] => some 0
  | mark :: rest => if mark = 'e' ∨ mark = 'E' then Text.Digits.readInt? rest else none

/-- A number without its sign: digits with an optional point among or around them, at least one
digit, and an optional exponent. -/
def readUnsigned? (negative : Bool) (text : List Char) : Option Double :=
  let (whole, afterWhole) := Text.Digits.split text
  let (fraction, rest) := match afterWhole with
    | '.' :: afterPoint => Text.Digits.split afterPoint
    | _ => ([], afterWhole)
  if whole.isEmpty && fraction.isEmpty then none
  else
    (readExponent? rest).map fun exponent =>
      ofDecimal negative (Text.Digits.value (whole ++ fraction)) (exponent - fraction.length)

/-- Infinity and NaN by name, in any letter case. -/
def readNamed? (negative : Bool) (text : List Char) : Option Double :=
  let sign := FloatFormat.double.signBits negative
  let name := String.ofList (text.map Char.toLower)
  if name = "inf" ∨ name = "infinity" then
    some (.ofBits (sign + FloatFormat.double.infinityBits))
  else if name = "nan" then some (.ofBits (FloatFormat.double.nanBits negative .double 0))
  else none

/-- The float that a text stands for. -/
def read? (text : List Char) : Option Double :=
  let (negative, unsigned) := match text with
    | '-' :: rest => (true, rest)
    | '+' :: rest => (false, rest)
    | _ => (false, text)
  (readUnsigned? negative unsigned).orElse fun _ => readNamed? negative unsigned

end Double

end RowProjection.Number
