import RowProjection.Projector.Basic
import RowProjection.Target.Any

namespace RowProjection

/-- A description from which every worker builds its own projector. -/
structure Supplier where
  columns : List Column
  key : TargetDescriptor
  value : TargetDescriptor
  failOnNulls : Bool
  deriving DecidableEq, Repr

namespace Supplier

/-- Builds a projector with targets of its own. -/
def get (supplier : Supplier) (context : Context) :
    Except Error (Projector AnyTarget AnyTarget) := do
  let key ← supplier.key.create context
  let value ← supplier.value.create context
  Projector.build supplier.columns key value supplier.failOnNulls

end Supplier

end RowProjection
