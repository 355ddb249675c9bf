import RowProjection.Context
import RowProjection.Target.Compact
import RowProjection.Target.JsonObject
import RowProjection.Target.Object
import RowProjection.Target.Primitive

namespace RowProjection

/-- A target of one of the formats. -/
inductive AnyTarget where
  | primitive (target : PrimitiveTarget)
  | json (target : JsonTarget)
  | compact (target : CompactTarget)
  | object (target : ObjectTarget)

/-- The same outcome for a target that holds the one it happened to. -/
def Outcome.within {τ υ α : Type} (outer : τ → υ) (outcome : Outcome τ α) : Outcome υ α :=
  (outcome.1, outer outcome.2)

namespace AnyTarget

def format : AnyTarget → String
  | primitive _ => PrimitiveTarget.format
  | json _ => JsonTarget.format
  | compact _ => CompactTarget.format
  | object _ => ObjectTarget.format

def injector (target : AnyTarget) (path : Option String) (type : DataType) :
    Except Error Injector :=
  match target with
  | primitive _ => PrimitiveTarget.injector path
  | json _ => JsonTarget.injector path type
  | compact target => target.injector path type
  | object target => target.injector path type

def start : AnyTarget → AnyTarget
  | primitive target => primitive target.start
  | json target => json target.start
  | compact target => compact target.start
  | object target => object target.start

def write (target : AnyTarget) (injector : Injector) (value : Value) : Outcome AnyTarget Unit :=
  match target with
  | primitive target => (target.write injector value).within primitive
  | json target => (target.write injector value).within json
  | compact target => (target.write injector value).within compact
  | object target => (target.write injector value).within object

def conclude : AnyTarget → Outcome AnyTarget Value
  | primitive target => target.conclude.within primitive
  | json target => target.conclude.within json
  | compact target => target.conclude.within compact
  | object target => target.conclude.within object

instance : Target AnyTarget where
  format := format
  injector := injector
  start := start
  write := write
  conclude := conclude

end AnyTarget

/-- The description of a target, which can be sent to other workers. -/
inductive TargetDescriptor where
  | primitive
  | json
  | compact (typeName : String)
  | object
  deriving DecidableEq, Repr

namespace TargetDescriptor

/-- Builds the target of a description. -/
def create (descriptor : TargetDescriptor) (context : Context) : Except Error AnyTarget :=
  match descriptor with
  | primitive => .ok (.primitive .new)
  | json => .ok (.json .new)
  | compact typeName => (CompactTarget.new context.catalog typeName).map .compact
  | object => .ok (.object (.new context.catalog context.converters))

end TargetDescriptor

end RowProjection
