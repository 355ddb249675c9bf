import RowProjection.Value.Text

namespace RowProjection.Value

mutual

/-- The tree of a value. Floats are widened to 64 bits; infinities and NaN become null. -/
def toJson : Value → Json
  | null => .null
  | boolean value => .boolean value
  | tinyInt value => .integer value.toInt
  | smallInt value => .integer value.toInt
  | int value => .integer value.toInt
  | bigInt value => .integer value.toInt
  | real value => .ofDouble value.widen
  | double value => .ofDouble value
  | json tree => tree
  | map entries => .ofMembers (toMembers entries)
  | row values => .array (toItems values)
  | record schema values => .ofMembers (toNamedMembers (schema.fields.map (·.name)) values)
  | object _ fields => .ofMembers (toMembers fields)
  | decimal value => .string (decimal value).text
  | varchar value => .string value
  | date value => .string value.text
  | time value => .string value.text
  | timestamp value => .string value.text
  | timestampTz value => .string value.text
  | bytes content => .string (bytes content).text

def toItems : List Value → List Json
  | [] => []
  | value :: rest => toJson value :: toItems rest

def toMembers : List (String × Value) → List (String × Json)
  | [] => []
  | (name, value) :: rest => (name, toJson value) :: toMembers rest

def toNamedMembers (names : List String) : List Value → List (String × Json)
  | [] => []
  | value :: rest =>
    match names with
    | [] => []
    | name :: more => (name, toJson value) :: toNamedMembers more rest

end

end RowProjection.Value
