import RowProjection.Failure
import RowProjection.Json.Reading
import RowProjection.Number.DecimalFloat
import RowProjection.Value.Json

/-!
Conversion of values to column types. Integers are narrowed within their range only, fractions are
cut off towards zero, and texts are read by the grammar of the type.
-/

namespace RowProjection.Value

open Number Calendar

/-- The characters of a text between its blanks. -/
def trimmed (text : String) : List Char :=
  Text.trim text.toList

/-- A text as a truth value, in any letter case. -/
def readBoolean? (text : String) : Option Bool :=
  match text.toList.map Char.toLower with
  | ['t', 'r', 'u', 'e'] => some true
  | ['f', 'a', 'l', 's', 'e'] => some false
  | _ => none

def toBoolean? : Value → Option Bool
  | boolean value => some value
  | varchar text => readBoolean? text
  | _ => none

/-- Whether an integer fits 64 bits. -/
def inInt64? (number : Int) : Option Int :=
  if Int64.minValue.toInt ≤ number ∧ number ≤ Int64.maxValue.toInt then some number else none

/-- The integer of a value, within 64 bits. -/
def toInteger? : Value → Option Int
  | tinyInt value => some value.toInt
  | smallInt value => some value.toInt
  | int value => some value.toInt
  | bigInt value => some value.toInt
  | decimal value => inInt64? value.truncated
  | real value => value.datum.truncated?
  | double value => value.datum.truncated?
  | varchar text => (Text.Digits.readInt? (trimmed text)).bind inInt64?
  | _ => none

def toTinyInt? (value : Value) : Option Int8 :=
  value.toInteger?.bind fun number =>
    if Int8.minValue.toInt ≤ number ∧ number ≤ Int8.maxValue.toInt then some (Int8.ofInt number)
    else none

def toSmallInt? (value : Value) : Option Int16 :=
  value.toInteger?.bind fun number =>
    if Int16.minValue.toInt ≤ number ∧ number ≤ Int16.maxValue.toInt then
      some (Int16.ofInt number)
    else none

def toInt? (value : Value) : Option Int32 :=
  value.toInteger?.bind fun number =>
    if Int32.minValue.toInt ≤ number ∧ number ≤ Int32.maxValue.toInt then
      some (Int32.ofInt number)
    else none

def toBigInt? (value : Value) : Option Int64 :=
  value.toInteger?.map Int64.ofInt

def toDouble? : Value → Option Double
  | tinyInt value => some (.ofInt value.toInt)
  | smallInt value => some (.ofInt value.toInt)
  | int value => some (.ofInt value.toInt)
  | bigInt value => some (.ofInt value.toInt)
  | decimal value => some value.toDouble
  | real value => some value.widen
  | double value => some value
  | varchar text => Double.read? (trimmed text)
  | _ => none

def toDecimal? : Value → Option Decimal
  | tinyInt value => Decimal.ofInt? value.toInt
  | smallInt value => Decimal.ofInt? value.toInt
  | int value => Decimal.ofInt? value.toInt
  | bigInt value => Decimal.ofInt? value.toInt
  | decimal value => some value
  | real value => Decimal.ofSingle? value
  | double value => Decimal.ofDouble? value
  | varchar text => Decimal.read? (trimmed text)
  | _ => none

/-- The local date or date and time of an instant, which the calendar may not reach. -/
def reached {α : Type} : Option α → Except Failure (Option α)
  | some moment => .ok (some moment)
  | none => .error (.breach .localDateOutOfRange)

def toDate? : Value → Except Failure (Option Date)
  | date value => .ok (some value)
  | timestamp value => .ok (some value.date)
  | timestampTz value => reached value.localDate?
  | varchar text => .ok (Date.read? (trimmed text))
  | _ => .ok none

def toTime? : Value → Option Time
  | time value => some value
  | timestamp value => some value.time
  | timestampTz value => some value.localTime
  | varchar text => Time.read? (trimmed text)
  | _ => none

def toTimestamp? : Value → Except Failure (Option Timestamp)
  | timestamp value => .ok (some value)
  | date value => .ok (some ⟨value, .midnight⟩)
  | timestampTz value => reached value.local?
  | varchar text => .ok (Timestamp.read? (trimmed text))
  | _ => .ok none

def toTimestampTz? : Value → Option OffsetTimestamp
  | timestampTz value => some value
  | timestamp value => some (.atUtc value)
  | date value => some (.atUtc ⟨value, .midnight⟩)
  | varchar text => OffsetTimestamp.read? (trimmed text)
  | _ => none

/-- A value as a JSON tree: a text is read as JSON. -/
def toTree? : Value → Option Json
  | json tree => some tree
  | varchar text => Json.read? text.toList
  | value => some value.toJson

/-- A composite value as a custom type: it is checked when it is stored. -/
def asCustom? : Value → Option Value
  | row values => some (row values)
  | record schema values => some (record schema values)
  | object typeName fields => some (object typeName fields)
  | _ => none

/-- The form of a value that is not null in a type, if it has one. -/
def formIn? (value : Value) : DataType → Except Failure (Option Value)
  | .varchar => .ok (some (varchar value.text))
  | .boolean => .ok (value.toBoolean?.map boolean)
  | .tinyInt => .ok (value.toTinyInt?.map tinyInt)
  | .smallInt => .ok (value.toSmallInt?.map smallInt)
  | .int => .ok (value.toInt?.map int)
  | .bigInt => .ok (value.toBigInt?.map bigInt)
  | .decimal => .ok (value.toDecimal?.map decimal)
  | .real => .ok (value.toDouble?.map fun number => real number.narrow)
  | .double => .ok (value.toDouble?.map double)
  | .date => value.toDate?.map (·.map date)
  | .time => .ok (value.toTime?.map time)
  | .timestamp => value.toTimestamp?.map (·.map timestamp)
  | .timestampTz => .ok (value.toTimestampTz?.map timestampTz)
  | .object => .ok (some value)
  | .json => .ok (value.toTree?.map json)
  | .null => .ok none
  | .custom _ => .ok value.asCustom?

/-- Converts a value to a type. Null is null in every type. -/
def convertTo (value : Value) (type : DataType) : Except Failure Value :=
  if value.isNull then .ok null
  else
    match value.formIn? type with
    | .ok (some converted) => .ok converted
    | .ok none => .error (.error (.conversion value.kindName type.text))
    | .error failure => .error failure

end RowProjection.Value
