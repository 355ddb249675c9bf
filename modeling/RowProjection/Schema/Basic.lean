import RowProjection.Error
import RowProjection.Schema.Fingerprint

/-!
Schemas: named lists of fields. A field of a nested record refers to its schema by name, so that
schemas may refer to themselves and to each other.
-/

namespace RowProjection

/-- One field of a schema. -/
structure SchemaField where
  name : String
  kind : FieldKind
  reference : Option String
  deriving DecidableEq, Repr

namespace SchemaField

/-- A field without a reference. -/
def scalar (name : String) (kind : FieldKind) : SchemaField :=
  ⟨name, kind, none⟩

/-- A field that holds a record of another schema. -/
def composite (name reference : String) : SchemaField :=
  ⟨name, .compact, some reference⟩

/-- The field that stores a column of a type. -/
def ofDataType (name : String) (type : DataType) : Except Error SchemaField :=
  match FieldKind.ofDataType? type with
  | some (kind, reference) => .ok ⟨name, kind, reference⟩
  | none => .error (.unsupportedType type)

/-- What a field adds to the layout of its schema. -/
def layout (field : SchemaField) : List UInt8 :=
  0 :: (Text.Utf8.bytes field.name ++ field.kind.tag ::
    (field.reference.map Text.Utf8.bytes).getD [])

/-- Declares a field: one of the same name is replaced in its place. -/
def declare (field : SchemaField) : List SchemaField → List SchemaField
  | [] => [field]
  | head :: rest => if head.name = field.name then field :: rest else head :: declare field rest

end SchemaField

/-- A schema with the fingerprint that identifies it in encoded records. -/
structure Schema where
  name : String
  fields : List SchemaField
  fingerprint : UInt32
  deriving DecidableEq, Repr

namespace Schema

/-- The bytes that the fingerprint is taken of. -/
def layout (name : String) (fields : List SchemaField) : List UInt8 :=
  Text.Utf8.bytes name ++ fields.flatMap SchemaField.layout

/-- The schema with exactly these fields. -/
def ofFields (name : String) (fields : List SchemaField) : Schema :=
  ⟨name, fields, Fingerprint.ofBytes (layout name fields)⟩

/-- The schema of these declarations; a repeated name replaces the earlier field. -/
def ofDeclarations (name : String) (declarations : List SchemaField) : Schema :=
  ofFields name (declarations.foldl (fun fields field => field.declare fields) [])

/-- The first field of a name and its position. -/
def field? (schema : Schema) (name : String) : Option (SchemaField × Nat) :=
  schema.fields.zipIdx.find? (·.1.name = name)

theorem getElem?_of_field? {schema : Schema} {name : String} {field : SchemaField} {index : Nat}
    (found : schema.field? name = some (field, index)) : schema.fields[index]? = some field :=
  List.mem_zipIdx_iff_getElem?.mp (List.mem_of_find?_eq_some found)

def hasField (schema : Schema) (name : String) : Bool :=
  (schema.field? name).isSome

/-- The names of the schemas that the fields refer to, in order. -/
def references (schema : Schema) : List String :=
  schema.fields.filterMap (·.reference)

end Schema

end RowProjection
