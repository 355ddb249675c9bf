import RowProjection.Proofs.Outcome
import RowProjection.Target.Compact
import RowProjection.Target.JsonObject
import RowProjection.Target.Object

namespace RowProjection

theorem RecordBuilder.set_eq_ok {builder next : RecordBuilder} {index : Nat} {value : Value}
    (success : builder.set index value = .ok next) :
    next = { builder with slots := builder.slots.set index value } := by
  rw [set] at success
  split at success
  · exact (Except.ok.inj success).symm
  · cases success

namespace CompactTarget

/-- Injectors are made for the fields of the schema. -/
theorem injector_eq_ok {target : CompactTarget} {path : Option String} {type : DataType}
    {injector : Injector} (made : target.injector path type = .ok injector) :
    ∃ name field index, path = some name ∧ target.schema.field? name = some (field, index) ∧
      injector = ⟨some name, .compact index field.kind field.reference⟩ := by
  cases path with
  | none => cases made
  | some name =>
    simp only [CompactTarget.injector] at made
    split at made
    · cases made
    · next field index found =>
      obtain ⟨_, _, rfl⟩ := Except.map_eq_ok_iff.mp made
      exact ⟨name, field, index, rfl, found, rfl⟩

/-- A write to a slot in a row fills it with the converted value. -/
theorem write_accumulating {catalog : Catalog} {builder : RecordBuilder} {path : Option String}
    {index : Nat} {kind : FieldKind} {reference : Option String} (value : Value)
    (inside : index < builder.slots.length) :
    write ⟨.accumulating, catalog, builder⟩ ⟨path, .compact index kind reference⟩ value =
      match value.storedIn catalog kind reference with
      | .ok converted => (.ok (),
          ⟨.accumulating, catalog, { builder with slots := builder.slots.set index converted }⟩)
      | .error failure => (.error failure, ⟨.accumulating, catalog, builder⟩) := by
  simp only [write, Lifecycle.checkWrite]
  cases value.storedIn catalog kind reference with
  | error failure => rfl
  | ok converted =>
    simp only [Except.bind, RecordBuilder.set, if_pos inside]

/-- A write leaves the target as it is, or fills one slot with the converted value. -/
theorem write_cases (target : CompactTarget) (injector : Injector) (value : Value) :
    (target.write injector value).2 = target ∨
      ∃ index kind reference converted, injector.operation = .compact index kind reference ∧
        value.storedIn target.catalog kind reference = .ok converted ∧
        (target.write injector value).2 =
          { target with builder.slots := target.builder.slots.set index converted } := by
  unfold write
  split
  · exact .inl rfl
  · split
    · next index kind reference operation =>
      dsimp only
      split
      · exact .inl rfl
      · next builder filled =>
        obtain ⟨converted, stored, set⟩ := Except.bind_eq_ok_iff.mp filled
        rw [RecordBuilder.set_eq_ok set]
        exact .inr ⟨index, kind, reference, converted, operation, stored, rfl⟩
    · exact .inl rfl

/-- A conclusion hands out the slots as a record, if a row is in progress, and keeps them. -/
theorem conclude_cases (target : CompactTarget) :
    (∃ failure, target.conclude = (.error failure, target)) ∨
      target.conclude = (.ok target.builder.build.toValue,
        { target with lifecycle := .uninitialized }) := by
  unfold conclude
  split
  · next failure _ => exact .inl ⟨failure, rfl⟩
  · exact .inr rfl

end CompactTarget

namespace ObjectTarget

/-- Injectors are made for columns of custom types. -/
theorem injector_eq_ok {target : ObjectTarget} {path : Option String} {type : DataType}
    {injector : Injector} (made : target.injector path type = .ok injector) :
    ∃ custom, type.custom? = some custom ∧ injector = ⟨none, .object custom⟩ := by
  unfold ObjectTarget.injector at made
  split at made
  · cases made
  · next custom found =>
    refine ⟨custom, found, ?_⟩
    split at made
    · cases made
    · split at made
      · cases made
      · split at made
        · exact (Except.ok.inj made).symm
        · obtain ⟨_, _, same⟩ := Except.map_eq_ok_iff.mp made
          exact same.symm

theorem write_accumulating {catalog : Catalog} {converters : Converters} {object : Value}
    {path : Option String} {custom : CustomType} (value : Value) :
    write ⟨.accumulating, catalog, converters, object⟩ ⟨path, .object custom⟩ value =
      match convert catalog converters custom.name value with
      | .ok converted => (.ok (), ⟨.accumulating, catalog, converters, converted⟩)
      | .error failure => (.error failure, ⟨.accumulating, catalog, converters, object⟩) := by
  simp only [write, Lifecycle.checkWrite]
  cases convert catalog converters custom.name value <;> rfl

/-- A write leaves the target as it is, or puts another object in it. -/
theorem write_cases (target : ObjectTarget) (injector : Injector) (value : Value) :
    (target.write injector value).2 = target ∨
      ∃ object, (target.write injector value).2 = { target with object } := by
  unfold write
  split
  · exact .inl rfl
  · split
    · split
      · exact .inl rfl
      · next object _ => exact .inr ⟨object, rfl⟩
    · exact .inl rfl

theorem conclude_cases (target : ObjectTarget) :
    (∃ failure, target.conclude = (.error failure, target)) ∨
      target.conclude = (.ok target.object,
        { target with lifecycle := .uninitialized, object := .null }) := by
  unfold conclude
  split
  · next failure _ => exact .inl ⟨failure, rfl⟩
  · exact .inr rfl

end ObjectTarget

namespace JsonTarget

/-- Injectors are made for the types that have a form. -/
theorem injector_eq_ok {path : Option String} {type : DataType} {injector : Injector}
    (made : JsonTarget.injector path type = .ok injector) :
    ∃ name form, path = some name ∧ JsonForm.ofFamily? type.family = some form ∧
      injector = ⟨some name, .json form⟩ := by
  cases path with
  | none => cases made
  | some name =>
    simp only [JsonTarget.injector] at made
    split at made
    · next form known => exact ⟨name, form, rfl, known, (Except.ok.inj made).symm⟩
    · cases made

/-- A write to a row puts the name in it, and the token behind it if there is one. -/
theorem write_accumulating {text : List Char} {hasMembers : Bool} {name : String} {form : JsonForm}
    (value : Value) :
    write ⟨.accumulating, text, hasMembers⟩ ⟨some name, .json form⟩ value =
      match form.token value with
      | .ok token => (.ok (), ⟨.accumulating,
          text ++ (if hasMembers then [','] else []) ++ Json.quoted name ++ [':'] ++ token, true⟩)
      | .error failure => (.error failure, ⟨.accumulating,
          text ++ (if hasMembers then [','] else []) ++ Json.quoted name ++ [':'], true⟩) := by
  simp only [write, Lifecycle.checkWrite]
  cases form.token value <;> rfl

end JsonTarget

end RowProjection
