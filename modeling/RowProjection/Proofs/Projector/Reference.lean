import RowProjection.Projector.Supplier

/-! What a row becomes, told without targets and injectors: each column is converted for its own
side, and each side is put together from the last conversions that go to it. -/

namespace RowProjection

/-- One of two, by the side. -/
def Side.choose {α : Type} (key value : α) : Side → α
  | .key => key
  | .value => value

/-- The forms of a side, but for JSON objects. -/
inductive SideForm where
  | primitive
  | compact (schema : Schema)
  | object
  deriving Repr

namespace Column

/-- The field of a schema that a column goes to, and its slot. -/
def slot? (column : Column) (schema : Schema) : Option (SchemaField × Nat) :=
  column.path.field.bind schema.field?

end Column

namespace SideForm

/-- Converts the value of a column for a side: a single value is taken as it is, a field of a record
and an object have conversions of their own. -/
def convert (context : Context) (form : SideForm) (column : Column) (value : Value) :
    Except Failure Value :=
  match form with
  | primitive => .ok value
  | compact schema =>
    match column.slot? schema with
    | some (field, _) => value.storedIn context.catalog field.kind field.reference
    | none => .error (.error (.schemaMismatch column.path.text schema.name))
  | object =>
    match column.type.custom? with
    | some custom => ObjectTarget.convert context.catalog context.converters custom.name value
    | none => .error (.error (.unsupportedType column.type))

/-- The result of the last column among those selected, or null if there is none. -/
def lastResult (selects : Column → Bool) (results : List (Column × Value)) : Value :=
  ((results.reverse.find? fun result => selects result.1).map (·.2)).getD .null

/-- The last result on a side that is a whole. -/
def whole (side : Side) (results : List (Column × Value)) : Value :=
  lastResult (fun column => column.path.side = side) results

/-- The last result on a side for each field of a record. -/
def slots (schema : Schema) (side : Side) (results : List (Column × Value)) : List Value :=
  (List.range schema.fields.length).map fun index =>
    lastResult (fun column => column.path.side = side ∧
      (column.slot? schema).map (·.2) = some index) results

/-- Puts a side together. -/
def assemble (form : SideForm) (side : Side) (results : List (Column × Value)) : Value :=
  match form with
  | primitive | object => whole side results
  | compact schema => .record schema (slots schema side results)

end SideForm

namespace Reference

/-- Converts the columns from an ordinal on, each for its own side, up to the first failure. -/
def convertColumns (context : Context) (forms : Side → SideForm) (row : Row) :
    Nat → List Column → Except Failure (List (Column × Value))
  | _, [] => .ok []
  | ordinal, column :: rest => do
    let result ← (forms column.path.side).convert context column (row.get ordinal)
    let others ← convertColumns context forms row (ordinal + 1) rest
    return (column, result) :: others

/-- The entry of a key and a value. A null key is reported before a null value. -/
def entry (failOnNulls : Bool) (key value : Value) : Except Failure Entry :=
  if failOnNulls && key.isNull then .error (.error (.nullNotAllowed .key))
  else if failOnNulls && value.isNull then .error (.error (.nullNotAllowed .value))
  else .ok ⟨key, value⟩

/-- The entry of a row. -/
def project (context : Context) (forms : Side → SideForm) (columns : List Column)
    (failOnNulls : Bool) (row : Row) : Except Failure Entry := do
  let results ← convertColumns context forms row 0 columns
  entry failOnNulls ((forms .key).assemble .key results) ((forms .value).assemble .value results)

end Reference

namespace SideForm

variable {side : Side} {column : Column}

end SideForm

end RowProjection
