import RowProjection.Calendar.Text
import RowProjection.Json.Text
import RowProjection.Number.DecimalText
import RowProjection.Text.Bytes
import RowProjection.Value.Basic

namespace RowProjection

namespace Value

/-- Parts with a comma between them. -/
def separated : List String → String
  | [] => ""
  | [part] => part
  | part :: rest => part ++ ", " ++ separated rest

mutual

/-- The text of a value, which is also its form in columns of type VARCHAR. -/
def text : Value → String
  | null => "NULL"
  | boolean value => if value then "true" else "false"
  | tinyInt value => String.ofList (Text.Digits.ofInt value.toInt)
  | smallInt value => String.ofList (Text.Digits.ofInt value.toInt)
  | int value => String.ofList (Text.Digits.ofInt value.toInt)
  | bigInt value => String.ofList (Text.Digits.ofInt value.toInt)
  | decimal value => value.text
  | real value => value.text
  | double value => value.text
  | varchar value => value
  | date value => value.text
  | time value => value.text
  | timestamp value => value.text
  | timestampTz value => value.text
  | json tree => tree.text
  | map entries => "\x7b" ++ separated (fieldTexts entries) ++ "\x7d"
  | row values => "(" ++ separated (texts values) ++ ")"
  | record schema values =>
    schema.name ++ "\x7b" ++
      separated (namedTexts (schema.fields.map (·.name)) values) ++ "\x7d"
  | object typeName fields =>
    typeName ++ "\x7b" ++ separated (fieldTexts fields) ++ "\x7d"
  | bytes content => Text.Bytes.quoted content

def texts : List Value → List String
  | [] => []
  | value :: rest => text value :: texts rest

def fieldTexts : List (String × Value) → List String
  | [] => []
  | (name, value) :: rest => (name ++ "=" ++ text value) :: fieldTexts rest

def namedTexts (names : List String) : List Value → List String
  | [] => []
  | value :: rest =>
    match names with
    | [] => []
    | name :: more => (name ++ "=" ++ text value) :: namedTexts more rest

end

end Value

end RowProjection
