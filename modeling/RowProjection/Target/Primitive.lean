import RowProjection.Target.Basic

namespace RowProjection

/-- The target of sides that are a single value. -/
structure PrimitiveTarget where
  lifecycle : Lifecycle
  value : Value
  deriving Repr

namespace PrimitiveTarget

def format : String := "PRIMITIVE"

def new : PrimitiveTarget :=
  ⟨.uninitialized, .null⟩

/-- Only whole sides can be written, with columns of any type. -/
def injector (path : Option String) : Except Error Injector :=
  match path with
  | none => .ok ⟨none, .identity⟩
  | some path => .error (.fieldOfScalar path)

def start (_ : PrimitiveTarget) : PrimitiveTarget :=
  ⟨.accumulating, .null⟩

def write (target : PrimitiveTarget) (injector : Injector) (value : Value) :
    Outcome PrimitiveTarget Unit :=
  match target.lifecycle.checkWrite format with
  | .error failure => (.error failure, target)
  | .ok () =>
    match injector.operation with
    | .identity => (.ok (), { target with value })
    | operation => (.error (.breach (.foreignInjector format operation)), target)

def conclude (target : PrimitiveTarget) : Outcome PrimitiveTarget Value :=
  match target.lifecycle.checkConclude format with
  | .error failure => (.error failure, target)
  | .ok () => (.ok target.value, ⟨.uninitialized, .null⟩)

instance : Target PrimitiveTarget where
  format _ := format
  injector _ path _ := injector path
  start := start
  write := write
  conclude := conclude

end PrimitiveTarget

end RowProjection
