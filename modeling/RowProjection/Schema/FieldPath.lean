import RowProjection.Record.Basic
import RowProjection.Schema.Catalog

namespace RowProjection

/-- One step of a path: the name of the field, and its position for rows. -/
structure PathSegment where
  name : String
  index : Nat
  deriving DecidableEq, Repr

/-- A path such as `organization.office.name`, compiled, and the type it ends at. -/
structure FieldPath where
  text : String
  segments : List PathSegment
  type : DataType
  deriving DecidableEq, Repr

namespace FieldPath

/-- The names between the points of a path. -/
def names (text : String) : List String :=
  (text.toList.splitOn '.').map String.ofList

/-- Follows names from a schema. Composite fields lead to the schema they refer to; any other
field must be the last. -/
def follow (catalog : Catalog) (text : String) (owner : TypeKind) (schema : Schema) :
    List String → Except Error (List PathSegment × DataType)
  | [] => .ok ([], .custom ⟨schema.name, owner⟩)
  | name :: rest =>
    if name.isEmpty then .error (.invalidPath text)
    else
      match schema.field? name with
      | none => .error (.schemaMismatch name schema.name)
      | some (field, index) =>
        match field.kind, field.reference with
        | .compact, some reference => do
          let next ← catalog.resolve reference
          let (segments, type) ← follow catalog text owner next rest
          return (⟨name, index⟩ :: segments, type)
        | _, _ =>
          match field.kind.dataType? field.reference owner with
          | none => .error (.unsupportedKind field.kind)
          | some type =>
            if rest.isEmpty then .ok ([⟨name, index⟩], type) else .error (.invalidPath text)

/-- Compiles a path from the schema of a root type. -/
def compile (catalog : Catalog) (root : CustomType) (text : String) : Except Error FieldPath :=
  if text.isEmpty then .error (.invalidPath text)
  else do
    let schema ← catalog.resolve root.name
    let (segments, type) ← follow catalog text root.kind schema (names text)
    return ⟨text, segments, type⟩

/-- How many fields the path goes through. -/
def depth (path : FieldPath) : Nat :=
  path.segments.length

/-- Walks a value along segments. A null on the way is the answer; other scalars have no fields. -/
def walk (text : String) : List PathSegment → Value → Except Error Value
  | [], value => .ok value
  | _ :: _, .null => .ok .null
  | segment :: rest, .record schema values =>
    walk text rest ((Record.named? ⟨schema, values⟩ segment.name).getD .null)
  | segment :: rest, .object _ fields =>
    walk text rest ((Value.named? fields segment.name).getD .null)
  | segment :: rest, .row values => walk text rest (Value.nth values segment.index)
  | _ :: _, _ => .error (.invalidPath text)

/-- The value that the path points at. -/
def extract (path : FieldPath) (value : Value) : Except Error Value :=
  walk path.text path.segments value

end FieldPath

end RowProjection
