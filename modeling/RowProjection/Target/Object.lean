import RowProjection.Target.Basic
import RowProjection.Target.Converters

namespace RowProjection

/-- The target of sides that are whole objects of native types. -/
structure ObjectTarget where
  lifecycle : Lifecycle
  catalog : Catalog
  converters : Converters
  object : Value

namespace ObjectTarget

def format : String := "OBJECT"

def new (catalog : Catalog) (converters : Converters) : ObjectTarget :=
  ⟨.uninitialized, catalog, converters, .null⟩

/-- Only whole sides can be written, with columns of native types. A type without a registered
converter must be declared, with all types that it can reach. -/
def injector (target : ObjectTarget) (path : Option String) (type : DataType) :
    Except Error Injector :=
  match type.custom? with
  | none => .error (.unsupportedType type)
  | some custom =>
    if custom.kind ≠ .native then .error (.customTypeNotTopLevel custom.kind)
    else
      match path with
      | some path => .error (.fieldOfObject path custom.name)
      | none =>
        if target.converters.contains custom.name then .ok ⟨none, .object custom⟩
        else (target.catalog.resolve custom.name).map fun _ => ⟨none, .object custom⟩

def start (target : ObjectTarget) : ObjectTarget :=
  { target with lifecycle := .accumulating, object := .null }

/-- Converts a value to an object of a type, by the registered converter or by its schema. -/
def convert (catalog : Catalog) (converters : Converters) (typeName : String) (value : Value) :
    Except Failure Value :=
  ((converters.find? typeName).getD (Converter.ofType typeName)) catalog value

def write (target : ObjectTarget) (injector : Injector) (value : Value) :
    Outcome ObjectTarget Unit :=
  match target.lifecycle.checkWrite format with
  | .error failure => (.error failure, target)
  | .ok () =>
    match injector.operation with
    | .object type =>
      match convert target.catalog target.converters type.name value with
      | .error failure => (.error failure, target)
      | .ok object => (.ok (), { target with object })
    | operation => (.error (.breach (.foreignInjector format operation)), target)

def conclude (target : ObjectTarget) : Outcome ObjectTarget Value :=
  match target.lifecycle.checkConclude format with
  | .error failure => (.error failure, target)
  | .ok () => (.ok target.object, { target with lifecycle := .uninitialized, object := .null })

instance : Target ObjectTarget where
  format _ := format
  injector := injector
  start := start
  write := write
  conclude := conclude

end ObjectTarget

end RowProjection
