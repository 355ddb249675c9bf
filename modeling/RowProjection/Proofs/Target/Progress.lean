import RowProjection.Proofs.Target.Writes
import RowProjection.Target.Any

namespace RowProjection.AnyTarget

/-- The states of a target while a row is in progress, given one state of it. -/
inductive InProgress : AnyTarget → AnyTarget → Prop where
  | primitive {origin : PrimitiveTarget} (value : Value) :
      InProgress (.primitive origin) (.primitive ⟨.accumulating, value⟩)
  | json {origin : JsonTarget} (text : List Char) (hasMembers : Bool) :
      InProgress (.json origin) (.json ⟨.accumulating, text, hasMembers⟩)
  | compact {origin : CompactTarget} {slots : List Value}
      (complete : slots.length = origin.schema.fields.length) :
      InProgress (.compact origin)
        (.compact ⟨.accumulating, origin.catalog, ⟨origin.schema, slots⟩⟩)
  | object {origin : ObjectTarget} (object : Value) :
      InProgress (.object origin)
        (.object ⟨.accumulating, origin.catalog, origin.converters, object⟩)

/-- What a write does with its value before it stores the result. -/
def conversion (target : AnyTarget) (injector : Injector) (value : Value) : Except Failure Unit :=
  match target, injector.operation with
  | json _, .json form => discard (form.token value)
  | compact target, .compact _ kind reference =>
    discard (value.storedIn target.catalog kind reference)
  | object target, .object type =>
    discard (ObjectTarget.convert target.catalog target.converters type.name value)
  | _, _ => .ok ()

variable {origin target : AnyTarget} {path : Option String} {type : DataType} {injector : Injector}

theorem inProgress_start (target : AnyTarget) : InProgress target (Target.start target) := by
  cases target with
  | primitive target => exact .primitive .null
  | json target => exact .json _ _
  | compact target => exact .compact (List.length_map _)
  | object target => exact .object .null

/-- A write succeeds or fails with the conversion of its value. A write that fails leaves the target
as it was, unless this is a JSON object. -/
theorem InProgress.write_cases (progress : InProgress origin target)
    (made : Target.injector origin path type = .ok injector) (value : Value) :
    (∃ next, Target.write target injector value = (.ok (), next) ∧ InProgress origin next ∧
      origin.conversion injector value = .ok ()) ∨
    ∃ failure next, Target.write target injector value = (.error failure, next) ∧
      InProgress origin next ∧ origin.conversion injector value = .error failure ∧
      (next = target ∨ ∃ object, origin = AnyTarget.json object) := by
  cases progress with
  | primitive held =>
    cases path with
    | none =>
      cases made
      exact .inl ⟨_, rfl, .primitive value, rfl⟩
    | some name => cases made
  | @json origin text hasMembers =>
    obtain ⟨name, form, _, _, rfl⟩ := JsonTarget.injector_eq_ok made
    have written : JsonTarget.write ⟨.accumulating, text, hasMembers⟩ ⟨some name, .json form⟩
        value = _ := JsonTarget.write_accumulating value
    cases converted : form.token value with
    | error failure =>
      rw [converted] at written
      exact .inr ⟨failure, _, congrArg (Outcome.within AnyTarget.json) written, .json _ _,
        congrArg discard converted, .inr ⟨origin, rfl⟩⟩
    | ok token =>
      rw [converted] at written
      exact .inl ⟨_, congrArg (Outcome.within AnyTarget.json) written, .json _ _,
        congrArg discard converted⟩
  | @compact origin slots complete =>
    obtain ⟨name, field, index, rfl, found, rfl⟩ := CompactTarget.injector_eq_ok made
    obtain ⟨below, _⟩ := List.getElem?_eq_some_iff.mp (Schema.getElem?_of_field? found)
    have written : CompactTarget.write ⟨.accumulating, origin.catalog, ⟨origin.schema, slots⟩⟩
        ⟨some name, .compact index field.kind field.reference⟩ value = _ :=
      CompactTarget.write_accumulating value (complete ▸ below)
    cases converted : value.storedIn origin.catalog field.kind field.reference with
    | error failure =>
      rw [converted] at written
      exact .inr ⟨failure, _, congrArg (Outcome.within AnyTarget.compact) written,
        .compact complete, congrArg discard converted, .inl rfl⟩
    | ok stored =>
      rw [converted] at written
      exact .inl ⟨_, congrArg (Outcome.within AnyTarget.compact) written,
        .compact ((List.length_set ..).trans complete), congrArg discard converted⟩
  | @object origin held =>
    obtain ⟨custom, _, rfl⟩ := ObjectTarget.injector_eq_ok made
    have written : ObjectTarget.write ⟨.accumulating, origin.catalog, origin.converters, held⟩
        ⟨none, .object custom⟩ value = _ := ObjectTarget.write_accumulating value
    cases converted : ObjectTarget.convert origin.catalog origin.converters custom.name value with
    | error failure =>
      rw [converted] at written
      exact .inr ⟨failure, _, congrArg (Outcome.within AnyTarget.object) written, .object _,
        congrArg discard converted, .inl rfl⟩
    | ok stored =>
      rw [converted] at written
      exact .inl ⟨_, congrArg (Outcome.within AnyTarget.object) written, .object _,
        congrArg discard converted⟩

theorem InProgress.write (progress : InProgress origin target)
    (made : Target.injector origin path type = .ok injector) (value : Value) :
    (Target.write target injector value).1 = origin.conversion injector value ∧
      InProgress origin (Target.write target injector value).2 := by
  rcases progress.write_cases made value with
    ⟨next, written, further, converted⟩ | ⟨failure, next, written, further, converted, _⟩
  · rw [written, converted]
    exact ⟨rfl, further⟩
  · rw [written, converted]
    exact ⟨rfl, further⟩

theorem InProgress.conclude (progress : InProgress origin target) :
    ∃ result after, Target.conclude target = (.ok result, after) := by
  cases progress <;> exact ⟨_, _, rfl⟩

end RowProjection.AnyTarget
