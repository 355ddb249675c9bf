import RowProjection.Proofs.Record.Building
import RowProjection.Proofs.Schema.Resolve
import RowProjection.Proofs.Value.Conversion
import RowProjection.Proofs.Value.Objects

namespace RowProjection

/-- Fields that take no value but null: arrays, and composites without a reference. -/
def SchemaField.IsTypeless (field : SchemaField) : Prop :=
  field.kind ∈ [.arrayOfString, .arrayOfInt64, .arrayOfCompact] ∨
    field.kind = .compact ∧ field.reference = none

theorem SchemaField.isTypeless_iff {field : SchemaField} (owner : TypeKind) :
    field.IsTypeless ↔ field.kind.dataType? field.reference owner = none := by
  obtain ⟨name, kind, reference⟩ := field
  cases kind <;> simp [IsTypeless, FieldKind.dataType?]

/-- The failures of conversions of a value, over the fields that it can meet. -/
inductive Failure.OfConversion (meets : SchemaField → Prop) (value : Value) : Failure → Prop where
  | noForm (source target : String) : OfConversion meets value (.error (.conversion source target))
  | typeless {field : SchemaField} (met : meets field) (typeless : field.IsTypeless) :
      OfConversion meets value (.error (.unsupportedKind field.kind))
  | outOfRange {moment : Calendar.OffsetTimestamp}
      (occurs : (Value.timestampTz moment).OccursIn value) (unreached : moment.localDate? = none) :
      OfConversion meets value (.breach .localDateOutOfRange)

variable {meets : SchemaField → Prop} {catalog : Catalog} {value : Value} {failure : Failure}

theorem Failure.OfConversion.of_part {part : Value} (fails : OfConversion meets part failure)
    (member : part ∈ value.components) : OfConversion meets value failure := by
  cases fails with
  | noForm source target => exact .noForm source target
  | typeless met typeless => exact .typeless met typeless
  | outOfRange occurs unreached => exact .outOfRange (.part member occurs) unreached

theorem Failure.OfConversion.imp {others : SchemaField → Prop}
    (fails : OfConversion meets value failure) (implies : ∀ field, meets field → others field) :
    OfConversion others value failure := by
  cases fails with
  | noForm source target => exact .noForm source target
  | typeless met typeless => exact .typeless (implies _ met) typeless
  | outOfRange occurs unreached => exact .outOfRange occurs unreached

namespace Value

/-- Conversions to the types of columns fail for want of a form, or at the ends of the calendar. -/
theorem failure_of_convertTo {type : DataType} (failed : value.convertTo type = .error failure) :
    failure.OfConversion meets value := by
  rcases value.convertTo_cases type with ⟨converted, same⟩ | same | ⟨leaves, same⟩
  · cases failed.symm.trans same
  · cases failed.symm.trans same
    exact .noForm _ _
  · cases failed.symm.trans same
    obtain ⟨_, moment, rfl, unreached⟩ := leaves
    exact .outOfRange .self (Calendar.OffsetTimestamp.localDate?_eq_none_iff.mpr unreached)

end Value

/-- A conversion for a field fails as the conversion of its own type, or for want of one. -/
theorem failure_of_convertField {owner : TypeKind} {field : SchemaField}
    {nested : Schema → Except Failure Value} (met : field.IsTypeless → meets field)
    (declared : ∀ name, field.kind = .compact → field.reference = some name →
      ∃ schema, catalog.find? name = some schema ∧
        ∀ failure, nested schema = .error failure → failure.OfConversion meets value)
    (failed : convertField catalog owner field.kind field.reference value nested =
      .error failure) : failure.OfConversion meets value := by
  obtain ⟨name, kind, reference⟩ := field
  unfold convertField at failed
  dsimp only at failed declared
  split at failed
  · cases failed
  · split at failed
    · next typeName =>
      obtain ⟨schema, found, fails⟩ := declared typeName rfl rfl
      rw [found] at failed
      exact fails failure failed
    · split at failed
      · exact Value.failure_of_convertTo failed
      · next typeless =>
        cases failed
        have typeless : SchemaField.IsTypeless ⟨name, kind, reference⟩ :=
          (SchemaField.isTypeless_iff owner).mpr typeless
        exact .typeless (met typeless) typeless

/-- A composite field leads to the schema that it refers to. -/
theorem convertField_nested {owner : TypeKind} {kind : FieldKind} {reference : Option String}
    {name : String} {schema : Schema} {nested : Schema → Except Failure Value}
    (present : value.isNull = false) (composite : kind = .compact)
    (refers : reference = some name) (found : catalog.find? name = some schema) :
    convertField catalog owner kind reference value nested = nested schema := by
  rw [composite, refers, convertField, present, if_neg Bool.false_ne_true]
  simp only [found]

/-- Schemas whose composite fields lead to declared schemas among them. -/
def Catalog.ClosedUnder (catalog : Catalog) (known : Schema → Prop) : Prop :=
  ∀ schema, known schema → ∀ field ∈ schema.fields, ∀ name, field.kind = .compact →
    field.reference = some name → ∃ inner, catalog.find? name = some inner ∧ known inner

/-- All that a resolved name leads to is declared. -/
theorem closedUnder_reaches {name : String} {schema : Schema}
    (resolved : catalog.resolve name = .ok schema) :
    catalog.ClosedUnder (catalog.Reaches name) := by
  obtain ⟨names, inside, closed⟩ := Catalog.closed_of_resolve resolved
  intro outer reached field member inner composite reference
  exact closed.reaches_reference inside reached member composite reference

section Known

variable {known : Schema → Prop} {fails : Value → Failure → Prop} {schema : Schema}

/-- A cause that covers all failures of conversions to known schemas: a value may have no form, a
part gives its failures to the whole, and a field those of the schema that it leads to. -/
structure Covers (catalog : Catalog) (known : Schema → Prop) (fails : Value → Failure → Prop) :
    Prop where
  noForm (value : Value) (source target : String) :
    fails value (.error (.conversion source target))
  of_part {value part : Value} {failure : Failure} (member : part ∈ value.components)
    (inner : fails part failure) : fails value failure
  of_field {owner : TypeKind} {schema : Schema} {field : SchemaField} {value : Value}
    {failure : Failure} {nested : Schema → Except Failure Value} (inside : known schema)
    (member : field ∈ schema.fields)
    (deeper : ∀ inner failure, known inner → nested inner = .error failure → fails value failure)
    (failed : convertField catalog owner field.kind field.reference value nested =
      .error failure) : fails value failure

/-- What conversions of the value to known schemas fail for. -/
def FailsAmong (known : Schema → Prop) (fails : Value → Failure → Prop) (value : Value)
    (convert : Value → Schema → Except Failure Value) : Prop :=
  ∀ schema failure, known schema → convert value schema = .error failure → fails value failure

/-- The fields of the schemas that are known. -/
def FieldAmong (known : Schema → Prop) (field : SchemaField) : Prop :=
  ∃ schema, known schema ∧ field ∈ schema.fields

theorem covers_ofConversion (closed : catalog.ClosedUnder known) :
    Covers catalog known fun value failure => failure.OfConversion (FieldAmong known) value where
  noForm _ _ _ := .noForm _ _
  of_part member inner := inner.of_part member
  of_field inside member deeper failed := by
    refine failure_of_convertField (fun _ => ⟨_, inside, member⟩) ?_ failed
    intro name composite reference
    obtain ⟨inner, found, innerKnown⟩ := closed _ inside _ member name composite reference
    exact ⟨inner, found, fun failure => deeper inner failure innerKnown⟩

namespace Record

/-- The conversion of a value to a record, as a value again. -/
def converting (catalog : Catalog) (value : Value) (schema : Schema) : Except Failure Value :=
  (ofValue catalog schema value).map toValue

theorem failure_of_fillSlot {name : String} {slots : List Value}
    (covers : Covers catalog known fails) (inside : known schema)
    (failing : FailsAmong known fails value (converting catalog))
    (failed : fillSlot catalog schema name value (converting catalog value) slots =
      .error failure) : fails value failure := by
  rw [fillSlot] at failed
  split at failed
  · next field index found =>
    exact covers.of_field inside (List.mem_of_getElem? (Schema.getElem?_of_field? found)) failing
      (Except.map_eq_error_iff.mp failed)
  · cases failed

theorem failure_of_ofRow {fields : List SchemaField} {values : List Value}
    (covers : Covers catalog known fails) (inside : known schema)
    (own : ∀ field ∈ fields, field ∈ schema.fields)
    (failing : ∀ value ∈ values, FailsAmong known fails value (converting catalog))
    (failed : ofRow catalog fields values = .error failure) :
    ∃ value ∈ values, fails value failure := by
  induction values generalizing fields with
  | nil => cases failed
  | cons value values ih =>
    cases fields with
    | nil => cases failed
    | cons field fields =>
      rw [List.forall_mem_cons] at failing own
      rcases Except.bind_eq_error_iff.mp failed with head | ⟨_, _, failed⟩
      · exact ⟨value, List.mem_cons_self .., covers.of_field inside own.1 failing.1 head⟩
      · rcases Except.bind_eq_error_iff.mp failed with tail | ⟨_, _, failed⟩
        · obtain ⟨other, member, fails⟩ := ih own.2 failing.2 tail
          exact ⟨other, List.mem_cons_of_mem _ member, fails⟩
        · cases failed

theorem failure_of_ofObjectFields {fields : List (String × Value)} {slots : List Value}
    (covers : Covers catalog known fails) (inside : known schema)
    (failing : ∀ value ∈ fields.map (·.2), FailsAmong known fails value (converting catalog))
    (failed : ofObjectFields catalog schema fields slots = .error failure) :
    ∃ value ∈ fields.map (·.2), fails value failure := by
  induction fields generalizing slots with
  | nil => cases failed
  | cons field fields ih =>
    rw [List.map_cons, List.forall_mem_cons] at failing
    rcases Except.bind_eq_error_iff.mp failed with head | ⟨_, _, failed⟩
    · exact ⟨field.2, List.mem_cons_self .., failure_of_fillSlot covers inside failing.1 head⟩
    · obtain ⟨other, member, fails⟩ := ih failing.2 failed
      exact ⟨other, List.mem_cons_of_mem _ member, fails⟩

theorem failure_of_ofRecordFields {names : List String} {values slots : List Value}
    (covers : Covers catalog known fails) (inside : known schema)
    (failing : ∀ value ∈ values, FailsAmong known fails value (converting catalog))
    (failed : ofRecordFields catalog schema names values slots = .error failure) :
    ∃ value ∈ values, fails value failure := by
  rw [ofRecordFields_eq] at failed
  obtain ⟨value, member, fails⟩ := failure_of_ofObjectFields covers inside
    (fun value member => failing value (Value.mem_of_mem_zip member)) failed
  exact ⟨value, Value.mem_of_mem_zip member, fails⟩

theorem failsAmong_converting (covers : Covers catalog known fails) (value : Value) :
    FailsAmong known fails value (converting catalog) := by
  induction value using Value.componentInduction with
  | step value ih =>
    intro schema failure inside failed
    have failed := Except.map_eq_error_iff.mp failed
    have within : (∃ part ∈ value.components, fails part failure) → fails value failure :=
      fun ⟨_, member, inner⟩ => covers.of_part member inner
    cases value with
    | record own values =>
      rw [ofValue] at failed
      split at failed
      · cases failed
      · have unconverted := Except.map_eq_error_iff.mp failed
        exact within (failure_of_ofRecordFields covers inside ih unconverted)
    | row values =>
      exact within (failure_of_ofRow covers inside (fun _ => id) ih
        (Except.map_eq_error_iff.mp failed))
    | object typeName fields =>
      exact within (failure_of_ofObjectFields covers inside ih (Except.map_eq_error_iff.mp failed))
    | _ =>
      cases failed
      exact covers.noForm _ _ _

end Record

namespace Value

theorem failure_of_objectFields {part? : Nat → String → Option Part} {index : Nat}
    {fields : List SchemaField} {values : List Value} (covers : Covers catalog known fails)
    (inside : known schema) (own : ∀ field ∈ fields, field ∈ schema.fields)
    (parts : ∀ index name part, part? index name = some part →
      part.value ∈ values ∧ part.toObject = toObject catalog part.value)
    (failing : ∀ value ∈ values, FailsAmong known fails value (toObject catalog))
    (failed : objectFields catalog part? index fields = .error failure) :
    ∃ value ∈ values, fails value failure := by
  induction fields generalizing index with
  | nil => cases failed
  | cons field fields ih =>
    rw [List.forall_mem_cons] at own
    have later {converted : Value} (failed : (objectFields catalog part? (index + 1) fields >>=
        fun others => pure ((field.name, converted) :: others)) = .error failure) :
        ∃ value ∈ values, fails value failure := by
      rcases Except.bind_eq_error_iff.mp failed with tail | ⟨_, _, failed⟩
      · exact ih own.2 tail
      · cases failed
    rw [objectFields] at failed
    split at failed
    · next part found =>
      rcases Except.bind_eq_error_iff.mp failed with head | ⟨_, _, failed⟩
      · obtain ⟨member, same⟩ := parts _ _ _ found
        rw [same] at head
        exact ⟨part.value, member, covers.of_field inside own.1 (failing _ member) head⟩
      · exact later failed
    · exact later failed

theorem failsAmong_toObject (covers : Covers catalog known fails) (value : Value) :
    FailsAmong known fails value (toObject catalog) := by
  induction value using componentInduction with
  | step value ih =>
    intro schema failure inside failed
    have assembled (failed : objectOf catalog (toObject catalog) value schema = .error failure) :
        fails value failure := by
      obtain ⟨part, member, inner⟩ := failure_of_objectFields covers inside (fun _ => id)
        (fun _ _ _ => part_of_fieldOf?) ih (Except.map_eq_error_iff.mp failed)
      exact covers.of_part member inner
    rw [← level_toObject] at failed
    cases value with
    | null => cases failed
    | object typeName fields =>
      rw [level] at failed
      split at failed
      · cases failed
      · exact assembled failed
    | row | record => exact assembled failed
    | _ =>
      cases failed
      exact covers.noForm _ _ _

end Value

end Known

section Met

variable {schema : Schema} {field : SchemaField} {index : Nat}

/-- A row of nulls with one value behind them. -/
def Value.rowAt (index : Nat) (value : Value) : Value :=
  .row (List.replicate index .null ++ [value])

theorem Record.ofRow_rowAt {fields : List SchemaField} (fieldAt : fields[index]? = some field)
    (failed : value.storedIn catalog field.kind field.reference = .error failure) :
    ofRow catalog fields (List.replicate index .null ++ [value]) = .error failure := by
  induction index generalizing fields with
  | zero =>
    cases fields with
    | nil => cases fieldAt
    | cons head rest =>
      cases fieldAt
      exact Except.bind_eq_error_iff.mpr (.inl failed)
  | succ index ih =>
    cases fields with
    | nil => cases fieldAt
    | cons head rest =>
      refine Except.bind_eq_error_iff.mpr (.inr ⟨.null, rfl, ?_⟩)
      exact Except.bind_eq_error_iff.mpr (.inl (ih fieldAt))

theorem Record.ofValue_rowAt (fieldAt : schema.fields[index]? = some field)
    (failed : value.storedIn catalog field.kind field.reference = .error failure) :
    ofValue catalog schema (.rowAt index value) = .error failure :=
  Except.map_eq_error_iff.mpr (ofRow_rowAt fieldAt failed)

namespace Value

theorem objectFields_eq_error {part? : Nat → String → Option Part} {start : Nat}
    {fields : List SchemaField} {part : Part} (fieldAt : fields[index]? = some field)
    (absent : ∀ place name, place < start + index →
      ∃ toObject, part? place name = some ⟨.null, toObject⟩)
    (here : part? (start + index) field.name = some part)
    (failed : convertField catalog .native field.kind field.reference part.value part.toObject =
      .error failure) : objectFields catalog part? start fields = .error failure := by
  induction index generalizing start fields with
  | zero =>
    cases fields with
    | nil => cases fieldAt
    | cons head rest =>
      cases fieldAt
      rw [Nat.add_zero] at here
      rw [objectFields, here]
      exact Except.bind_eq_error_iff.mpr (.inl failed)
  | succ index ih =>
    cases fields with
    | nil => cases fieldAt
    | cons head rest =>
      rw [← Nat.succ_add_eq_add_succ] at absent here
      obtain ⟨toObject, null⟩ := absent start head.name (by omega)
      rw [objectFields, null]
      refine Except.bind_eq_error_iff.mpr (.inr ⟨.null, rfl, ?_⟩)
      exact Except.bind_eq_error_iff.mpr (.inl (ih fieldAt absent here))

theorem toObject_rowAt (fieldAt : schema.fields[index]? = some field)
    (failed : convertField catalog .native field.kind field.reference value
      (value.toObject catalog) = .error failure) :
    (rowAt index value).toObject catalog schema = .error failure := by
  let values := List.replicate index Value.null ++ [value]
  have absent (place : Nat) (name : String) (before : place < 0 + index) :
      ∃ toObject, (parts catalog values)[place]? = some ⟨.null, toObject⟩ := by
    rw [Nat.zero_add] at before
    refine ⟨toObject catalog .null, ?_⟩
    rw [parts_eq_map, List.getElem?_map, List.getElem?_append_left (by simpa using before),
      List.getElem?_replicate_of_lt before, Option.map_some]
  have here : (parts catalog values)[0 + index]? = some ⟨value, toObject catalog value⟩ := by
    rw [parts_eq_map, List.getElem?_map]
    simp [values]
  rw [rowAt, toObject]
  exact Except.map_eq_error_iff.mpr (objectFields_eq_error fieldAt absent here failed)

end Value

/-- Every field of a schema that a name leads to is met by some row for that name. -/
theorem exists_unsupported {name : String} (reached : catalog.Reaches name schema)
    (member : field ∈ schema.fields) (typeless : field.IsTypeless) :
    ∃ value : Value, value.isNull = false ∧ ∀ root, catalog.find? name = some root →
      Record.ofValue catalog root value = .error (.error (.unsupportedKind field.kind)) ∧
      value.toObject catalog root = .error (.error (.unsupportedKind field.kind)) := by
  induction reached with
  | @declared name schema found =>
    obtain ⟨index, below, fieldAt⟩ := List.getElem_of_mem member
    have fieldAt := List.getElem?_eq_some_iff.mpr ⟨below, fieldAt⟩
    have failed (owner : TypeKind) (nested : Schema → Except Failure Value) :
        convertField catalog owner field.kind field.reference (.boolean true) nested =
          .error (.error (.unsupportedKind field.kind)) := by
      have untyped := (SchemaField.isTypeless_iff owner).mp typeless
      unfold convertField
      split
      · next null => cases null
      · split
        · next name composite reference =>
          rw [composite, reference] at untyped
          cases untyped
        · rw [untyped]
    refine ⟨.rowAt index (.boolean true), rfl, fun root present => ?_⟩
    cases found.symm.trans present
    exact ⟨Record.ofValue_rowAt fieldAt (failed _ _), Value.toObject_rowAt fieldAt (failed _ _)⟩
  | @nested name inner outer schema through found atField composite reference deeper ih =>
    obtain ⟨value, present, fails⟩ := ih member
    obtain ⟨next, nextFound⟩ : ∃ next, catalog.find? inner = some next := by
      cases deeper with
      | declared found | nested found => exact ⟨_, found⟩
    obtain ⟨asRecord, asObject⟩ := fails next nextFound
    obtain ⟨index, below, throughAt⟩ := List.getElem_of_mem atField
    have throughAt := List.getElem?_eq_some_iff.mpr ⟨below, throughAt⟩
    have descends (owner : TypeKind) (nested : Schema → Except Failure Value) :
        convertField catalog owner through.kind through.reference value nested = nested next :=
      convertField_nested present composite reference nextFound
    refine ⟨.rowAt index value, rfl, fun root rootFound => ?_⟩
    cases found.symm.trans rootFound
    refine ⟨Record.ofValue_rowAt throughAt ?_, Value.toObject_rowAt throughAt ?_⟩
    · exact (descends _ _).trans (Except.map_eq_error_iff.mpr asRecord)
    · exact (descends _ _).trans asObject

end Met

end RowProjection
