import RowProjection.Failure
import RowProjection.Value.Basic

/-!
Targets: builders of one key or value for each row, in one format. A row is started, written field
by field and concluded. What a failed write leaves behind stays in the target until the next row
is started.
-/

namespace RowProjection

/-- Whether a row is in progress. -/
inductive Lifecycle where
  | uninitialized
  | accumulating
  deriving DecidableEq, Repr

namespace Lifecycle

/-- Fails unless a row is in progress. -/
def checkWrite (lifecycle : Lifecycle) (format : String) : Except Failure Unit :=
  match lifecycle with
  | accumulating => .ok ()
  | uninitialized => .error (.breach (.writtenOutsideRow format))

/-- Fails unless a row is in progress. -/
def checkConclude (lifecycle : Lifecycle) (format : String) : Except Failure Unit :=
  match lifecycle with
  | accumulating => .ok ()
  | uninitialized => .error (.breach (.concludedOutsideRow format))

end Lifecycle

/-- What an operation on a target answers, and the target after it, also where it fails. -/
abbrev Outcome (τ α : Type) := Except Failure α × τ

/-- A format of keys and values. -/
class Target (τ : Type) where
  /-- The name of the format. -/
  format : τ → String
  /-- Compiles a write of a column to a field, or to the whole side. -/
  injector : τ → Option String → DataType → Except Error Injector
  /-- Starts a row and discards what the one before left behind. -/
  start : τ → τ
  /-- Carries out an injector. -/
  write : τ → Injector → Value → Outcome τ Unit
  /-- Ends the row and hands out its result. -/
  conclude : τ → Outcome τ Value

end RowProjection
