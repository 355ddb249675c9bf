import RowProjection.Error
import RowProjection.Target.Injector

namespace RowProjection

/-- A call outside its contract. -/
inductive Breach where
  /-- A write while no row is in progress. -/
  | writtenOutsideRow (format : String)
  /-- A conclusion while no row is in progress. -/
  | concludedOutsideRow (format : String)
  /-- An injector that another target made. -/
  | foreignInjector (format : String) (operation : Operation)
  /-- A slot outside the schema. -/
  | slotOutOfRange
  /-- A local date outside the range of dates. -/
  | localDateOutOfRange
  deriving DecidableEq, Repr

namespace Breach

/-- The message of a breach, where the contract has one. -/
def message? : Breach → Option String
  | writtenOutsideRow format => some (format ++ " target written outside init/conclude")
  | concludedOutsideRow format => some (format ++ " target concluded before init")
  | foreignInjector format operation =>
    some (format ++ " target cannot apply " ++ operation.description)
  | slotOutOfRange | localDateOutOfRange => none

end Breach

/-- Why an operation on values gave no result. -/
inductive Failure where
  | error (error : Error)
  | breach (breach : Breach)
  deriving DecidableEq, Repr

end RowProjection
