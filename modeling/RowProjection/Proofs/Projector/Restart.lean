import RowProjection.Proofs.Target.Writes
import RowProjection.Projector.Supplier

/-! Rows do not depend on the rows before them. Starting a target discards whatever a row has left
in it, wherever that row broke off, so that a projector in use answers like a fresh one. -/

namespace RowProjection

/-- Targets that forget the row before when they are started. -/
class Target.Restarts (τ : Type) [Target τ] : Prop where
  start_start : ∀ target : τ, start (start target) = start target
  start_write : ∀ (target : τ) (injector : Injector) (value : Value),
    start (write target injector value).2 = start target
  start_conclude : ∀ target : τ, start (conclude target).2 = start target

open Target Restarts

instance : Restarts PrimitiveTarget where
  start_start _ := rfl
  start_write _ _ _ := rfl
  start_conclude _ := rfl

instance : Restarts JsonTarget where
  start_start _ := rfl
  start_write _ _ _ := rfl
  start_conclude _ := rfl

/-- The slots are emptied by the schema, which stays. -/
instance : Restarts CompactTarget where
  start_start _ := rfl
  start_write target injector value := by
    change (target.write injector value).2.start = target.start
    rcases target.write_cases injector value with same | ⟨_, _, _, _, _, _, same⟩
    · rw [same]
    · rw [same]
      rfl
  start_conclude target := by
    change target.conclude.2.start = target.start
    rcases target.conclude_cases with ⟨failure, same⟩ | same
    · rw [same]
    · rw [same]
      rfl

instance : Restarts ObjectTarget where
  start_start _ := rfl
  start_write target injector value := by
    change (target.write injector value).2.start = target.start
    rcases target.write_cases injector value with same | ⟨object, same⟩
    · rw [same]
    · rw [same]
      rfl
  start_conclude target := by
    change target.conclude.2.start = target.start
    rcases target.conclude_cases with ⟨failure, same⟩ | same
    · rw [same]
    · rw [same]
      rfl

instance : Restarts AnyTarget where
  start_start target := by
    cases target with
    | primitive target => exact congrArg AnyTarget.primitive (start_start target)
    | json target => exact congrArg AnyTarget.json (start_start target)
    | compact target => exact congrArg AnyTarget.compact (start_start target)
    | object target => exact congrArg AnyTarget.object (start_start target)
  start_write target injector value := by
    cases target with
    | primitive target => exact congrArg AnyTarget.primitive (start_write target injector value)
    | json target => exact congrArg AnyTarget.json (start_write target injector value)
    | compact target => exact congrArg AnyTarget.compact (start_write target injector value)
    | object target => exact congrArg AnyTarget.object (start_write target injector value)
  start_conclude target := by
    cases target with
    | primitive target => exact congrArg AnyTarget.primitive (start_conclude target)
    | json target => exact congrArg AnyTarget.json (start_conclude target)
    | compact target => exact congrArg AnyTarget.compact (start_conclude target)
    | object target => exact congrArg AnyTarget.object (start_conclude target)

variable {κ ν : Type} [Target κ] [Target ν] [Restarts κ] [Restarts ν]

namespace Sides

theorem start_start (sides : Sides κ ν) : sides.start.start = sides.start := by
  rw [start, start, Restarts.start_start, Restarts.start_start]

theorem start_writeOne {τ : Type} [Target τ] [Restarts τ] (target : τ) (injector : Option Injector)
    (value : Value) : Target.start (writeOne target injector value).2 = Target.start target := by
  cases injector with
  | none => rfl
  | some injector => exact start_write target injector value

theorem start_writeColumn (sides : Sides κ ν) (key value : Option Injector) (content : Value) :
    (sides.writeColumn key value content).2.start = sides.start := by
  have keySame := start_writeOne sides.key key content
  have valueSame := start_writeOne sides.value value content
  unfold writeColumn
  split
  · next failure keyTarget written =>
    rw [written] at keySame
    rw [start, keySame]
    rfl
  · next keyTarget written =>
    rw [written] at keySame
    rw [start, keySame, valueSame]
    rfl

/-- Wherever the columns break off, both targets start anew. -/
theorem start_writeColumns (row : Row) (injectors : List (Option Injector × Option Injector))
    (ordinal : Nat) (sides : Sides κ ν) :
    (writeColumns row ordinal injectors sides).2.start = sides.start := by
  induction injectors generalizing ordinal sides with
  | nil => rfl
  | cons injector rest ih =>
    obtain ⟨key, value⟩ := injector
    have same := sides.start_writeColumn key value (row.get ordinal)
    unfold writeColumns
    split
    · next failure next written =>
      rw [written] at same
      exact same
    · next next written =>
      rw [written] at same
      rw [ih, same]

/-- So they do after a null key, when the value is still in progress. -/
theorem start_conclude (failOnNulls : Bool) (sides : Sides κ ν) :
    (sides.conclude failOnNulls).2.start = sides.start := by
  have keySame := Restarts.start_conclude sides.key
  have valueSame := Restarts.start_conclude sides.value
  unfold conclude
  dsimp only
  split
  · rw [start, keySame]
    rfl
  · rw [start, keySame, valueSame]
    rfl

end Sides

namespace Projector

/-- The projector after rows, whatever became of them. -/
def after (projector : Projector κ ν) (rows : List Row) : Projector κ ν :=
  rows.foldl (fun current row => (current.project row).2) projector

/-- The projector as each row finds it. -/
def restarted (projector : Projector κ ν) : Projector κ ν :=
  { projector with targets := projector.targets.start }

theorem project_restarted (projector : Projector κ ν) (row : Row) :
    projector.restarted.project row = projector.project row := by
  unfold project restarted
  rw [Sides.start_start]

theorem restarted_project (projector : Projector κ ν) (row : Row) :
    (projector.project row).2.restarted = projector.restarted := by
  have written := Sides.start_writeColumns row
    (projector.keyInjectors.zip projector.valueInjectors) 0 projector.targets.start
  rw [Sides.start_start] at written
  unfold project
  dsimp only
  split
  · next failure targets broken =>
    rw [broken] at written
    rw [restarted, written]
    rfl
  · next targets complete =>
    rw [complete] at written
    rw [restarted, Sides.start_conclude, written]
    rfl

theorem restarted_after (projector : Projector κ ν) (rows : List Row) :
    (projector.after rows).restarted = projector.restarted := by
  induction rows generalizing projector with
  | nil => rfl
  | cons row rows ih => exact (ih (projector.project row).2).trans (projector.restarted_project row)

/-- What was projected before has no influence on a row. -/
theorem project_after (projector : Projector κ ν) (rows : List Row) (row : Row) :
    (projector.after rows).project row = projector.project row := by
  rw [← project_restarted, restarted_after, project_restarted]

/-- Rows in a sequence are projected each on its own. -/
theorem projectAll_after (projector : Projector κ ν) (earlier rows : List Row) :
    (projector.after earlier).projectAll rows = rows.map fun row => (projector.project row).1 := by
  induction rows generalizing earlier with
  | nil => rfl
  | cons row rows ih =>
    have next : ((projector.after earlier).project row).2 = projector.after (earlier ++ [row]) := by
      rw [after, after, List.foldl_append]
      rfl
    change ((projector.after earlier).project row).1 ::
      ((projector.after earlier).project row).2.projectAll rows = _
    rw [next, ih, project_after]
    rfl

end Projector

namespace Supplier

/-- Projectors of one description answer alike for a row, whichever rows one of them has already
projected, and whether these succeeded or failed. -/
theorem project_eq_fresh (supplier : Supplier) (context : Context)
    (used fresh : Projector AnyTarget AnyTarget) (inUse : supplier.get context = .ok used)
    (built : supplier.get context = .ok fresh) (earlier : List Row) (row : Row) :
    ((used.after earlier).project row).1 = (fresh.project row).1 := by
  rw [inUse] at built
  cases built
  rw [Projector.project_after]

/-- A number as the key, and a number and a text as members of an object. -/
def pointSupplier : Supplier where
  columns :=
    [⟨⟨"__key", .int, false⟩, ⟨.key, none⟩⟩, ⟨⟨"x", .int, false⟩, ⟨.value, some "x"⟩⟩]
  key := .primitive
  value := .json
  failOnNulls := true

/-- A row that breaks off within a member, and one that breaks off at its null key. -/
def brokenRows : List Row :=
  [⟨[.int 1, .varchar "one"]⟩, ⟨[.null, .int 2]⟩]

theorem project_point_after_broken : ∃ projector,
    pointSupplier.get (.ofCatalog .empty) = .ok projector ∧
      projector.projectAll brokenRows =
        [.error (.error (.conversion "VARCHAR" "INTEGER")),
         .error (.error (.nullNotAllowed .key))] ∧
      ((projector.after brokenRows).project ⟨[.int 3, .int 4]⟩).1 =
        (projector.project ⟨[.int 3, .int 4]⟩).1 :=
  ⟨_, rfl, by rfl, project_eq_fresh pointSupplier (.ofCatalog .empty) _ _ rfl rfl brokenRows _⟩

end Supplier

end RowProjection
