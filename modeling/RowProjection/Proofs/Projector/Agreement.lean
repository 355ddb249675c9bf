import RowProjection.Proofs.Projector.Reference
import RowProjection.Proofs.Schema.Resolve
import RowProjection.Proofs.Target.Writes

/-! Projectors agree with the reference. While a row is written, each target holds what is put
together from the conversions so far. -/

namespace RowProjection

namespace SideForm

variable (context : Context)

/-- The target of a form, as it is built. -/
def target : SideForm → AnyTarget
  | primitive => .primitive .new
  | compact schema => .compact (.withSchema context.catalog schema)
  | object => .object (.new context.catalog context.converters)

/-- The target of a side in a row, after these results. -/
def holding (side : Side) (results : List (Column × Value)) : SideForm → AnyTarget
  | primitive => .primitive ⟨.accumulating, whole side results⟩
  | compact schema =>
    .compact ⟨.accumulating, context.catalog, ⟨schema, slots schema side results⟩⟩
  | object =>
    .object ⟨.accumulating, context.catalog, context.converters, whole side results⟩

end SideForm

theorem TargetDescriptor.create_compact_eq_ok {typeName : String} {context : Context}
    {target : AnyTarget} (created : (compact typeName).create context = .ok target) :
    ∃ schema, context.catalog.resolve typeName = .ok schema ∧
      target = .compact (.withSchema context.catalog schema) := by
  obtain ⟨_, made, rfl⟩ := Except.map_eq_ok_iff.mp created
  obtain ⟨schema, resolved, rfl⟩ := Except.map_eq_ok_iff.mp made
  exact ⟨schema, resolved, rfl⟩

section Resolution

variable {τ : Type} [Target τ] {target : τ} {side : Side} {column : Column}
  {injector : Option Injector}

theorem resolveColumn_other (other : column.path.side ≠ side)
    (made : resolveColumn target side column = .ok injector) : injector = none := by
  rw [resolveColumn, if_neg other] at made
  exact (Except.ok.inj made).symm

theorem resolveColumn_own (own : column.path.side = side)
    (made : resolveColumn target side column = .ok injector) :
    ∃ compiled, Target.injector target column.path.field column.type = .ok compiled ∧
      injector = some compiled := by
  rw [resolveColumn, if_pos own] at made
  obtain ⟨compiled, success, same⟩ := Except.map_eq_ok_iff.mp made
  exact ⟨compiled, success, same.symm⟩

theorem resolveInjectors_cons {columns : List Column} {injectors : List (Option Injector)}
    (made : resolveInjectors target side (column :: columns) = .ok injectors) :
    ∃ first others, resolveColumn target side column = .ok first ∧
      resolveInjectors target side columns = .ok others ∧ injectors = first :: others := by
  obtain ⟨first, others, firstMade, othersMade, same⟩ := Except.both_eq_ok_iff.mp made
  exact ⟨first, others, firstMade, othersMade, same.symm⟩

end Resolution

section Side

variable {context : Context} {form : SideForm} {side : Side} {column : Column}
  {results : List (Column × Value)}

theorem conclude_holding (context : Context) (form : SideForm) (side : Side)
    (results : List (Column × Value)) :
    ∃ left, Target.conclude (form.holding context side results) =
      (.ok (form.assemble side results), left) := by
  cases form <;> exact ⟨_, rfl⟩

end Side

namespace Sides

variable {κ ν : Type} [Target κ] [Target ν]

/-- A column of the key leaves the target of the value as it is. -/
theorem writeColumn_key (sides : Sides κ ν) (injector : Injector) (content : Value) :
    sides.writeColumn (some injector) none content =
      ((Target.write sides.key injector content).1,
        ⟨(Target.write sides.key injector content).2, sides.value⟩) := by
  simp only [writeColumn, writeOne]
  obtain ⟨result, target⟩ := Target.write sides.key injector content
  cases result <;> rfl

/-- A column of the value leaves the target of the key as it is. -/
theorem writeColumn_value (sides : Sides κ ν) (injector : Injector) (content : Value) :
    sides.writeColumn none (some injector) content =
      ((Target.write sides.value injector content).1,
        ⟨sides.key, (Target.write sides.value injector content).2⟩) :=
  rfl

end Sides

section Rows

variable {context : Context} {forms : Side → SideForm}

/-- Both targets of a row, after these results. -/
def Sides.holding (context : Context) (forms : Side → SideForm) (results : List (Column × Value)) :
    Sides AnyTarget AnyTarget :=
  ⟨(forms .key).holding context .key results, (forms .value).holding context .value results⟩

end Rows

namespace Supplier

/-- A projector that is built has the targets of the two descriptions, and their injectors. -/
theorem get_cases {supplier : Supplier} {context : Context}
    {projector : Projector AnyTarget AnyTarget} (built : supplier.get context = .ok projector) :
    ∃ key value keys values, supplier.key.create context = .ok key ∧
      supplier.value.create context = .ok value ∧
      resolveInjectors key .key supplier.columns = .ok keys ∧
      resolveInjectors value .value supplier.columns = .ok values ∧
      projector = ⟨⟨key, value⟩, keys, values, supplier.failOnNulls⟩ := by
  obtain ⟨key, keyCreated, built⟩ := Except.bind_eq_ok_iff.mp built
  obtain ⟨value, valueCreated, built⟩ := Except.bind_eq_ok_iff.mp built
  obtain ⟨keys, keysMade, built⟩ := Except.bind_eq_ok_iff.mp built
  obtain ⟨values, valuesMade, built⟩ := Except.bind_eq_ok_iff.mp built
  cases built
  exact ⟨key, value, keys, values, keyCreated, valueCreated, keysMade, valuesMade, rfl⟩

/-- A schema with two fields for labels. -/
def labelSchema : Schema :=
  .ofFields "Label" [.scalar "text" .string, .scalar "width" .nullableInt32]

end Supplier

end RowProjection
