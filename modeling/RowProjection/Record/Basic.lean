import RowProjection.Failure
import RowProjection.Value.Basic

namespace RowProjection

/-- A schema and one value for each of its fields. -/
structure Record where
  schema : Schema
  values : List Value
  deriving Repr

namespace Record

/-- A slot of null for each field. -/
def emptySlots (schema : Schema) : List Value :=
  schema.fields.map fun _ => .null

/-- The record whose fields are all null. -/
def empty (schema : Schema) : Record :=
  ⟨schema, emptySlots schema⟩

def toValue (record : Record) : Value :=
  .record record.schema record.values

/-- The value of the first field of a name. -/
def named? (record : Record) (name : String) : Option Value :=
  (record.schema.field? name).bind fun (_, index) => record.values[index]?

/-- The fields by name, in the order of the schema. -/
def fields (record : Record) : List (String × Value) :=
  (record.schema.fields.map (·.name)).zip record.values

end Record

/-- The slots of a record that is being filled. -/
structure RecordBuilder where
  schema : Schema
  slots : List Value
  deriving Repr

namespace RecordBuilder

def new (schema : Schema) : RecordBuilder :=
  ⟨schema, Record.emptySlots schema⟩

/-- Empties all slots. -/
def reset (builder : RecordBuilder) : RecordBuilder :=
  new builder.schema

/-- Fills a slot, which must belong to the schema. -/
def set (builder : RecordBuilder) (index : Nat) (value : Value) : Except Failure RecordBuilder :=
  if index < builder.slots.length then .ok { builder with slots := builder.slots.set index value }
  else .error (.breach .slotOutOfRange)

/-- Fills the slot of the first field of a name. -/
def setNamed (builder : RecordBuilder) (name : String) (value : Value) :
    Except Failure RecordBuilder :=
  match builder.schema.field? name with
  | some (_, index) => builder.set index value
  | none => .error (.error (.schemaMismatch name builder.schema.name))

/-- The record of the present slots. The builder keeps them. -/
def build (builder : RecordBuilder) : Record :=
  ⟨builder.schema, builder.slots⟩

end RecordBuilder

end RowProjection
