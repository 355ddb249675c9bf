import RowProjection.Column
import RowProjection.Wire.Fault

/-!
Errors. Building a projector, declaring types and projecting a row fail with an `Error`, which the
caller handles. A `Breach` is a call that its caller should not have made, or a moment that the
calendar cannot show.
-/

namespace RowProjection

/-- A recoverable failure. -/
inductive Error where
  /-- The schema has no field of this name. -/
  | schemaMismatch (path typeName : String)
  /-- Fields of this kind cannot be written. -/
  | unsupportedKind (kind : FieldKind)
  /-- The format cannot write columns of this type. -/
  | unsupportedType (type : DataType)
  /-- The format has no form for a whole key or value. -/
  | wholeValue (format : String)
  /-- A scalar has no fields. -/
  | fieldOfScalar (path : String)
  /-- The fields of a whole object cannot be written one by one. -/
  | fieldOfObject (path typeName : String)
  /-- Objects of this kind cannot be a whole key or value. -/
  | customTypeNotTopLevel (kind : TypeKind)
  /-- The key or value of an entry is null. -/
  | nullNotAllowed (side : Side)
  /-- A reference to a type that is not declared. -/
  | missingType (name : String)
  /-- A declaration of a type that is declared already. -/
  | duplicateType (name : String)
  | invalidPath (path : String)
  /-- A value that has no form in the type asked for. -/
  | conversion (source target : String)
  /-- A record that cannot be encoded or decoded. -/
  | encoding (fault : Wire.Fault)
  deriving DecidableEq, Repr

namespace Error

/-- The class of an error, by which callers tell errors apart. Places that a format cannot write
are one class. -/
def className : Error → String
  | schemaMismatch _ _ => "SchemaMismatch"
  | unsupportedKind _ => "UnsupportedKind"
  | unsupportedType _ => "UnsupportedType"
  | wholeValue _ | fieldOfScalar _ | fieldOfObject _ _ => "TopLevel"
  | customTypeNotTopLevel _ => "CustomTypeNotTopLevel"
  | nullNotAllowed _ => "NullNotAllowed"
  | missingType _ => "MissingType"
  | duplicateType _ => "DuplicateType"
  | invalidPath _ => "InvalidPath"
  | conversion _ _ => "DataConversion"
  | encoding _ => "Encoding"

def message : Error → String
  | schemaMismatch path typeName =>
    "Field \"" ++ path ++ "\" doesn't exist in Compact schema \"" ++ typeName ++ "\""
  | unsupportedKind kind => kind.text ++ " kind is not supported in SQL with Compact format!"
  | unsupportedType type => "Unsupported type: " ++ type.text
  | wholeValue format =>
    "Writing to top-level fields of type " ++ format ++ " is not supported"
  | fieldOfScalar path =>
    "Field \"" ++ path ++
      "\" cannot be written, a primitive target only accepts the whole value"
  | fieldOfObject path typeName =>
    "Field \"" ++ path ++ "\" cannot be written, custom type " ++ typeName ++
      " is only supported at the top level"
  | customTypeNotTopLevel kind =>
    "TypeKind " ++ kind.text ++ " does not support top-level custom types"
  | nullNotAllowed side => "Cannot write NULL to '" ++ side.reservedName ++ "' field"
  | missingType name => "Encountered type '" ++ name ++ "', which doesn't exist"
  | duplicateType name => "Type '" ++ name ++ "' already exists"
  | invalidPath path => "Invalid field path \"" ++ path ++ "\""
  | conversion source target => "Cannot convert " ++ source ++ " to " ++ target
  | encoding fault => "encoding error: " ++ fault.message

end Error

end RowProjection
