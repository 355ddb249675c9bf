import RowProjection.Record.Basic
import RowProjection.Schema.Catalog
import RowProjection.Value.Convert

/-!
From composite values to records and native objects. Rows are matched with the fields of a schema
by position, records and objects by name. A null ends the descent, so that schemas that refer to
themselves are followed only as deep as the value goes.
-/

namespace RowProjection

/-- Converts a value to what a field holds. `nested` converts the value to the schema that a
composite field refers to; other fields take the column type of their kind. -/
def convertField (catalog : Catalog) (owner : TypeKind) (kind : FieldKind)
    (reference : Option String) (value : Value) (nested : Schema → Except Failure Value) :
    Except Failure Value :=
  if value.isNull then .ok .null
  else
    match kind, reference with
    | .compact, some name =>
      match catalog.find? name with
      | some schema => nested schema
      | none => .error (.error (.missingType name))
    | _, _ =>
      match kind.dataType? reference owner with
      | some type => value.convertTo type
      | none => .error (.error (.unsupportedKind kind))

namespace Record

/-- Converts a value for the first field of a name and puts it into its slot. A name that the
schema does not have is passed over. -/
def fillSlot (catalog : Catalog) (schema : Schema) (name : String) (value : Value)
    (nested : Schema → Except Failure Value) (slots : List Value) :
    Except Failure (List Value) :=
  match schema.field? name with
  | some (field, index) =>
    (convertField catalog .compact field.kind field.reference value nested).map (slots.set index)
  | none => .ok slots

mutual

/-- The slots that a value fills in a record of a schema. A record of a schema of the same name is
taken over with the schema it has. -/
def ofValue (catalog : Catalog) (schema : Schema) : Value → Except Failure Record
  | .record own values =>
    if own.name = schema.name then .ok ⟨own, values⟩
    else
      (ofRecordFields catalog schema (own.fields.map (·.name)) values (emptySlots schema)).map
        fun slots => ⟨schema, slots⟩
  | .row values => (ofRow catalog schema.fields values).map fun slots => ⟨schema, slots⟩
  | .object _ fields =>
    (ofObjectFields catalog schema fields (emptySlots schema)).map fun slots => ⟨schema, slots⟩
  | value => .error (.error (.conversion value.kindName schema.name))

/-- The values of a row in the fields at their positions. -/
def ofRow (catalog : Catalog) (fields : List SchemaField) : List Value → Except Failure (List Value)
  | [] => .ok (fields.map fun _ => .null)
  | value :: rest =>
    match fields with
    | [] => .ok []
    | field :: more => do
      let head ← convertField catalog .compact field.kind field.reference value fun schema =>
        (ofValue catalog schema value).map toValue
      let tail ← ofRow catalog more rest
      return head :: tail

/-- The values of a record in the fields of the same names. -/
def ofRecordFields (catalog : Catalog) (schema : Schema) (names : List String) :
    List Value → List Value → Except Failure (List Value)
  | [], slots => .ok slots
  | value :: rest, slots =>
    match names with
    | [] => .ok slots
    | name :: more => do
      let slots ← fillSlot catalog schema name value
        (fun schema => (ofValue catalog schema value).map toValue) slots
      ofRecordFields catalog schema more rest slots

/-- The values of an object in the fields of the same names. -/
def ofObjectFields (catalog : Catalog) (schema : Schema) :
    List (String × Value) → List Value → Except Failure (List Value)
  | [], slots => .ok slots
  | (name, value) :: rest, slots => do
    let slots ← fillSlot catalog schema name value
      (fun schema => (ofValue catalog schema value).map toValue) slots
    ofObjectFields catalog schema rest slots

end

end Record

namespace Value

/-- Converts a value to what a record stores in a field. -/
def storedIn (catalog : Catalog) (kind : FieldKind) (reference : Option String) (value : Value) :
    Except Failure Value :=
  convertField catalog .compact kind reference value fun schema =>
    (Record.ofValue catalog schema value).map Record.toValue

/-- A part of a composite value, with its conversion to an object of a schema. -/
structure Part where
  value : Value
  toObject : Schema → Except Failure Value

/-- The fields of an object, in the order of the schema, from the parts of a value. -/
def objectFields (catalog : Catalog) (part? : Nat → String → Option Part) (index : Nat) :
    List SchemaField → Except Failure (List (String × Value))
  | [] => .ok []
  | field :: rest => do
    let converted ← match part? index field.name with
      | some part =>
        convertField catalog .native field.kind field.reference part.value part.toObject
      | none => .ok .null
    let others ← objectFields catalog part? (index + 1) rest
    return (field.name, converted) :: others

/-- The object of a schema made of the parts of a value. -/
def objectOfParts (catalog : Catalog) (schema : Schema) (part? : Nat → String → Option Part) :
    Except Failure Value :=
  (objectFields catalog part? 0 schema.fields).map (object schema.name)

mutual

/-- Converts a value to an object of a schema. Null stays null, and an object of that type is
taken over. -/
def toObject (catalog : Catalog) : Value → Schema → Except Failure Value
  | null, _ => .ok null
  | object typeName fields, schema =>
    if typeName = schema.name then .ok (object typeName fields)
    else
      objectOfParts catalog schema fun _ name =>
        ((namedParts catalog fields).find? (·.1 = name)).map (·.2)
  | row values, schema =>
    objectOfParts catalog schema fun index _ => (parts catalog values)[index]?
  | record own values, schema =>
    objectOfParts catalog schema fun _ name =>
      (((own.fields.map (·.name)).zip (parts catalog values)).find? (·.1 = name)).map (·.2)
  | value, schema => .error (.error (.conversion value.kindName schema.name))

def parts (catalog : Catalog) : List Value → List Part
  | [] => []
  | value :: rest => ⟨value, toObject catalog value⟩ :: parts catalog rest

def namedParts (catalog : Catalog) : List (String × Value) → List (String × Part)
  | [] => []
  | (name, value) :: rest => (name, ⟨value, toObject catalog value⟩) :: namedParts catalog rest

end

/-- Converts a value to an object of a declared type. -/
def toObjectOf (catalog : Catalog) (typeName : String) (value : Value) : Except Failure Value :=
  match catalog.find? typeName with
  | some schema => value.toObject catalog schema
  | none => .error (.error (.missingType typeName))

end Value

end RowProjection
