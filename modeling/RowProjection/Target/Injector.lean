import RowProjection.Schema.FieldKind
import RowProjection.Text.Quoted

/-!
Injectors: writes of one column to one place, compiled once for all rows. An injector is plain
data; the target that made it carries it out.
-/

namespace RowProjection

/-- How a field of a JSON object is written. -/
inductive JsonForm where
  | boolean
  | tinyInt
  | smallInt
  | int
  | bigInt
  | real
  | double
  /-- The text of the value, as a string. -/
  | text
  /-- Trees, maps, booleans and numbers as they are, anything else as a string of its text. -/
  | object
  deriving DecidableEq, Repr

namespace JsonForm

def name : JsonForm → String
  | boolean => "Boolean"
  | tinyInt => "TinyInt"
  | smallInt => "SmallInt"
  | int => "Int"
  | bigInt => "BigInt"
  | real => "Real"
  | double => "Double"
  | text => "Text"
  | object => "Object"

/-- All forms. -/
def all : List JsonForm :=
  [boolean, tinyInt, smallInt, int, bigInt, real, double, text, object]

/-- The form of the fields of a type family. Trees and nulls have none. -/
def ofFamily? : TypeFamily → Option JsonForm
  | .boolean => some boolean
  | .tinyInt => some tinyInt
  | .smallInt => some smallInt
  | .integer => some int
  | .bigInt => some bigInt
  | .real => some real
  | .double => some double
  | .decimal | .time | .date | .timestamp | .timestampWithTimeZone | .varchar => some text
  | .object => some object
  | .json | .null => none

end JsonForm

/-- What an injector does with its value. -/
inductive Operation where
  /-- Stores it as it is. -/
  | identity
  /-- Writes it to a field of a JSON object. -/
  | json (form : JsonForm)
  /-- Converts it to a field of a record and stores it there. -/
  | compact (index : Nat) (kind : FieldKind) (reference : Option String)
  /-- Converts it to an object of a native type. -/
  | object (type : CustomType)
  deriving DecidableEq, Repr

namespace TypeKind

/-- The name under which a kind is declared. -/
def name : TypeKind → String
  | native => "Native"
  | compact => "Compact"
  | portable => "Portable"

end TypeKind

namespace Operation

/-- The operation as diagnostics show it. -/
def description : Operation → String
  | identity => "Identity"
  | json form => "Json(" ++ form.name ++ ")"
  | compact index kind reference =>
    "Compact \x7b index: " ++ toString index ++ ", kind: " ++ kind.name ++ ", type_ref: " ++
      Text.quotedOption reference ++ " \x7d"
  | object type =>
    "Object(CustomType \x7b name: " ++ Text.quoted type.name ++ ", kind: " ++ type.kind.name ++
      " \x7d)"

end Operation

/-- A compiled write: the field it goes to, or the whole side, and the operation. -/
structure Injector where
  path : Option String
  operation : Operation
  deriving DecidableEq, Repr

namespace Injector

/-- The injector as diagnostics show it. -/
def description (injector : Injector) : String :=
  "UpsertInjector \x7b path: " ++ Text.quotedOption injector.path ++ ", op: " ++
    injector.operation.description ++ " \x7d"

end Injector

end RowProjection
