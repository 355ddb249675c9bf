import RowProjection.Column
import RowProjection.Target.Basic

/-!
Projectors: rows become entries of a key and a value. The writes of all columns are compiled once,
when the projector is built; each row then starts both targets, writes its columns in order and
concludes both.
-/

namespace RowProjection

/-- The write of a column on one side, if the column belongs to it. -/
def resolveColumn {τ : Type} [Target τ] (target : τ) (side : Side) (column : Column) :
    Except Error (Option Injector) :=
  if column.path.side = side then
    (Target.injector target column.path.field column.type).map some
  else .ok none

/-- The writes of all columns on one side, one for each column. The first column that the target
cannot take fails the whole. -/
def resolveInjectors {τ : Type} [Target τ] (target : τ) (side : Side) :
    List Column → Except Error (List (Option Injector))
  | [] => .ok []
  | column :: rest => do
    let injector ← resolveColumn target side column
    let injectors ← resolveInjectors target side rest
    return injector :: injectors

/-- A key and a value. -/
structure Entry where
  key : Value
  value : Value
  deriving Repr

/-- The two targets of a projector. -/
structure Sides (κ ν : Type) where
  key : κ
  value : ν

structure Projector (κ ν : Type) where
  targets : Sides κ ν
  keyInjectors : List (Option Injector)
  valueInjectors : List (Option Injector)
  failOnNulls : Bool

namespace Sides

variable {κ ν : Type} [Target κ] [Target ν]

def start (sides : Sides κ ν) : Sides κ ν :=
  ⟨Target.start sides.key, Target.start sides.value⟩

/-- Carries out a write on one target; without an injector nothing happens. -/
def writeOne {τ : Type} [Target τ] (target : τ) (injector : Option Injector) (value : Value) :
    Outcome τ Unit :=
  match injector with
  | some injector => Target.write target injector value
  | none => (.ok (), target)

/-- Writes a column to both sides, the key first. -/
def writeColumn (sides : Sides κ ν) (key value : Option Injector) (content : Value) :
    Outcome (Sides κ ν) Unit :=
  match writeOne sides.key key content with
  | (.error failure, keyTarget) => (.error failure, { sides with key := keyTarget })
  | (.ok (), keyTarget) =>
    let (result, valueTarget) := writeOne sides.value value content
    (result, ⟨keyTarget, valueTarget⟩)

/-- Writes the columns from an ordinal on, up to the first failure. -/
def writeColumns (row : Row) : Nat → List (Option Injector × Option Injector) → Sides κ ν →
    Outcome (Sides κ ν) Unit
  | _, [], sides => (.ok (), sides)
  | ordinal, (key, value) :: rest, sides =>
    match sides.writeColumn key value (row.get ordinal) with
    | (.error failure, sides) => (.error failure, sides)
    | (.ok (), sides) => writeColumns row (ordinal + 1) rest sides

/-- Whether a null may be handed out. -/
def checkNull (failOnNulls : Bool) (side : Side) (value : Value) : Except Failure Unit :=
  if failOnNulls && value.isNull then .error (.error (.nullNotAllowed side)) else .ok ()

/-- Concludes the key, then the value. A null key ends the row before the value is concluded. -/
def conclude (failOnNulls : Bool) (sides : Sides κ ν) : Outcome (Sides κ ν) Entry :=
  let (keyResult, keyTarget) := Target.conclude sides.key
  match keyResult.bind fun key => (checkNull failOnNulls .key key).map fun _ => key with
  | .error failure => (.error failure, { sides with key := keyTarget })
  | .ok key =>
    let (valueResult, valueTarget) := Target.conclude sides.value
    let result := do
      let value ← valueResult
      checkNull failOnNulls .value value
      return ⟨key, value⟩
    (result, ⟨keyTarget, valueTarget⟩)

end Sides

namespace Projector

variable {κ ν : Type} [Target κ] [Target ν]

/-- Builds a projector of columns in the order of the row. -/
def build (columns : List Column) (key : κ) (value : ν) (failOnNulls : Bool) :
    Except Error (Projector κ ν) := do
  let keyInjectors ← resolveInjectors key .key columns
  let valueInjectors ← resolveInjectors value .value columns
  return ⟨⟨key, value⟩, keyInjectors, valueInjectors, failOnNulls⟩

/-- Projects one row. The projector goes on with what the row leaves in its targets. -/
def project (projector : Projector κ ν) (row : Row) : Outcome (Projector κ ν) Entry :=
  let injectors := projector.keyInjectors.zip projector.valueInjectors
  match projector.targets.start.writeColumns row 0 injectors with
  | (.error failure, targets) => (.error failure, { projector with targets })
  | (.ok (), targets) =>
    let (result, targets) := targets.conclude projector.failOnNulls
    (result, { projector with targets })

/-- Projects rows one after another. -/
def projectAll (projector : Projector κ ν) : List Row → List (Except Failure Entry)
  | [] => []
  | row :: rest =>
    let (result, next) := projector.project row
    result :: projectAll next rest

end Projector

end RowProjection
