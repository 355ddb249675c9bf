import RowProjection.Record.Conversion
import RowProjection.Target.Basic

namespace RowProjection

/-- The target of sides that are records of one schema. -/
structure CompactTarget where
  lifecycle : Lifecycle
  catalog : Catalog
  builder : RecordBuilder
  deriving Repr

namespace CompactTarget

def format : String := "COMPACT"

/-- A target for a schema as it is. -/
def withSchema (catalog : Catalog) (schema : Schema) : CompactTarget :=
  ⟨.uninitialized, catalog, .new schema⟩

/-- A target for a declared type, all of whose references must be declared too. -/
def new (catalog : Catalog) (typeName : String) : Except Error CompactTarget :=
  (catalog.resolve typeName).map (withSchema catalog)

def schema (target : CompactTarget) : Schema :=
  target.builder.schema

/-- Checks that a column can be written to a field. A custom column goes into a nested record
only, and all types that the record can reach must be declared. -/
def checkField (catalog : Catalog) (field : SchemaField) (type : DataType) : Except Error Unit :=
  if type.custom?.isSome ∧ field.kind ≠ .compact then
    .error (.conversion type.text field.kind.text)
  else if ¬ field.kind.isColumnKind then .error (.unsupportedKind field.kind)
  else if field.kind = .compact then
    match field.reference with
    | none => .error (.unsupportedKind .compact)
    | some reference => discard (catalog.resolve reference)
  else .ok ()

/-- Only fields of the schema can be written. -/
def injector (target : CompactTarget) (path : Option String) (type : DataType) :
    Except Error Injector :=
  match path with
  | none => .error (.wholeValue format)
  | some path =>
    match target.schema.field? path with
    | none => .error (.schemaMismatch path target.schema.name)
    | some (field, index) =>
      (checkField target.catalog field type).map fun _ =>
        ⟨some path, .compact index field.kind field.reference⟩

def start (target : CompactTarget) : CompactTarget :=
  { target with lifecycle := .accumulating, builder := target.builder.reset }

def write (target : CompactTarget) (injector : Injector) (value : Value) :
    Outcome CompactTarget Unit :=
  match target.lifecycle.checkWrite format with
  | .error failure => (.error failure, target)
  | .ok () =>
    match injector.operation with
    | .compact index kind reference =>
      let filled := (value.storedIn target.catalog kind reference).bind (target.builder.set index)
      match filled with
      | .error failure => (.error failure, target)
      | .ok builder => (.ok (), { target with builder })
    | operation => (.error (.breach (.foreignInjector format operation)), target)

def conclude (target : CompactTarget) : Outcome CompactTarget Value :=
  match target.lifecycle.checkConclude format with
  | .error failure => (.error failure, target)
  | .ok () => (.ok target.builder.build.toValue, { target with lifecycle := .uninitialized })

instance : Target CompactTarget where
  format _ := format
  injector := injector
  start := start
  write := write
  conclude := conclude

end CompactTarget

end RowProjection
