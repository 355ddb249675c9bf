import RowProjection.Proofs.Record.Failures
import RowProjection.Proofs.Record.Typing

namespace RowProjection

variable {catalog : Catalog} {value : Value} {kind : FieldKind} {reference : Option String}

namespace Value

/-- Neither a record nor an object. These alone are taken over under the schema they have. -/
def IsUnbound : Value → Prop
  | record _ _ | object _ _ => False
  | _ => True

mutual

/-- A record read as an object of its type, and the records in its slots as objects in turn. Any
other value stays as it is. -/
def asObject : Value → Value
  | record schema values =>
    object schema.name ((schema.fields.map (·.name)).zip (asObjects values))
  | value => value

def asObjects : List Value → List Value
  | [] => []
  | value :: rest => asObject value :: asObjects rest

end

theorem unbound_row_iff {values : List Value} :
    (row values).Throughout IsUnbound ↔ ∀ part ∈ values, part.Throughout IsUnbound := by
  rw [throughout_iff]
  exact and_iff_right trivial

theorem unbound_scalar (single : value.components = []) (own : value.IsUnbound) :
    value.Throughout IsUnbound :=
  (throughout_iff_self single).mpr own

/-- Converts a value to what a native object has in a field. -/
def nativeIn (catalog : Catalog) (kind : FieldKind) (reference : Option String) (value : Value) :
    Except Failure Value :=
  convertField catalog .native kind reference value (value.toObject catalog)

theorem asObjects_eq_map (values : List Value) : asObjects values = values.map asObject := by
  induction values with
  | nil => rfl
  | cons value values ih => rw [asObjects, ih, List.map_cons]

/-- The object of a record has its type name, and its fields by name. -/
theorem asObject_toValue (record : Record) :
    record.toValue.asObject =
      object record.schema.name (record.fields.map (Prod.map id asObject)) := by
  rw [Record.toValue, asObject, asObjects_eq_map, List.zip_map_right, Record.fields]

theorem asObject_of_mem_fieldKinds (held : kind ∈ value.fieldKinds) (scalar : kind ≠ .compact) :
    value.asObject = value := by
  cases value with
  | record schema values => exact absurd (List.mem_singleton.mp held) scalar
  | _ => rfl

end Value

/-- A field that refers to no schema takes the column type of its kind. -/
theorem convertField_scalar {owner : TypeKind} {nested : Schema → Except Failure Value}
    (present : value.isNull = false) (scalar : ∀ name, kind = .compact → reference ≠ some name) :
    convertField catalog owner kind reference value nested =
      (kind.dataType? reference owner).elim (.error (.error (.unsupportedKind kind)))
        value.convertTo := by
  unfold convertField
  rw [present, if_neg Bool.false_ne_true]
  split
  · next name => exact absurd rfl (scalar name rfl)
  · split
    · next typed => rw [typed, Option.elim_some]
    · next untyped => rw [untyped, Option.elim_none]

theorem convertField_missing {owner : TypeKind} {name : String}
    {nested : Schema → Except Failure Value} (present : value.isNull = false)
    (missing : catalog.find? name = none) :
    convertField catalog owner .compact (some name) value nested =
      .error (.error (.missingType name)) := by
  rw [convertField, present, if_neg Bool.false_ne_true]
  simp only [missing]

/-- Only nested records have a type that depends on the owner. -/
theorem FieldKind.dataType?_scalar (owner other : TypeKind)
    (scalar : ∀ name, kind = .compact → reference ≠ some name) :
    kind.dataType? reference owner = kind.dataType? reference other := by
  cases kind with
  | compact =>
    cases reference with
    | none => rfl
    | some name => exact absurd rfl (scalar name rfl)
  | _ => rfl

namespace Value

/-- A field that refers to no schema takes the same value in an object as in a record. -/
theorem nativeIn_scalar (present : value.isNull = false)
    (scalar : ∀ name, kind = .compact → reference ≠ some name) :
    value.nativeIn catalog kind reference =
      (value.storedIn catalog kind reference).map asObject := by
  rw [nativeIn, storedIn, convertField_scalar present scalar, convertField_scalar present scalar,
    FieldKind.dataType?_scalar .native .compact scalar]
  cases typed : kind.dataType? reference .compact with
  | none => rfl
  | some type =>
    rw [Option.elim_some]
    cases success : value.convertTo type with
    | error failure => rfl
    | ok converted =>
      have notCompact : kind ≠ .compact := by
        rintro rfl
        obtain ⟨name, refers, _⟩ := Option.map_eq_some_iff.mp typed
        exact scalar name rfl refers
      have held := mem_fieldKinds_of_convertTo notCompact present typed success
      rw [Except.map, asObject_of_mem_fieldKinds held notCompact]

/-- Where the conversions to nested schemas answer alike, those to a field do. -/
theorem nativeIn_of_nested
    (nested : value.isNull = false → ∀ schema,
      value.toObject catalog schema = (Record.converting catalog value schema).map asObject) :
    value.nativeIn catalog kind reference =
      (value.storedIn catalog kind reference).map asObject := by
  by_cases null : value.isNull = true
  · rw [nativeIn, storedIn]
    unfold convertField
    rw [if_pos null, if_pos null]
    rfl
  · have present := Bool.eq_false_iff.mpr null
    by_cases composite : ∃ name, kind = .compact ∧ reference = some name
    · obtain ⟨name, rfl, rfl⟩ := composite
      rw [nativeIn, storedIn]
      cases found : catalog.find? name with
      | none =>
        rw [convertField_missing present found, convertField_missing present found]
        rfl
      | some schema =>
        rw [convertField_nested present rfl rfl found, convertField_nested present rfl rfl found]
        exact nested present schema
    · exact nativeIn_scalar present fun name compact refers => composite ⟨name, compact, refers⟩

/-- The fields of an object, taken off a row, are the slots of the record under their names. -/
theorem objectFields_row (values : List Value) (start : Nat) (fields : List SchemaField)
    (alike : ∀ value ∈ values, ∀ kind reference, value.nativeIn catalog kind reference =
      (value.storedIn catalog kind reference).map asObject) :
    objectFields catalog (fun index _ => (parts catalog values)[index]?) start fields =
      (Record.ofRow catalog fields (values.drop start)).map fun slots =>
        (fields.map (·.name)).zip (slots.map asObject) := by
  induction fields generalizing start with
  | nil =>
    rw [objectFields]
    cases values.drop start <;> rfl
  | cons field fields ih =>
    have others := ih (start + 1)
    cases here : values[start]? with
    | none =>
      have past : values.length ≤ start := List.getElem?_eq_none_iff.mp here
      have part : (parts catalog values)[start]? = none := by
        rw [parts_eq_map, List.getElem?_map, here, Option.map_none]
      rw [List.drop_eq_nil_of_le (by omega)] at others ⊢
      rw [objectFields, part, others]
      rfl
    | some value =>
      obtain ⟨below, same⟩ := List.getElem?_eq_some_iff.mp here
      have part : (parts catalog values)[start]? = some ⟨value, toObject catalog value⟩ := by
        rw [parts_eq_map, List.getElem?_map, here, Option.map_some]
      have converted := alike value (List.mem_of_getElem? here) field.kind field.reference
      rw [List.drop_eq_getElem_cons below, same, Record.ofRow, objectFields, part, others]
      simp only [nativeIn, storedIn] at converted ⊢
      rw [converted]
      cases convertField catalog .compact field.kind field.reference value fun schema =>
          (Record.ofValue catalog schema value).map Record.toValue with
      | error failure => rfl
      | ok head =>
        cases Record.ofRow catalog fields (values.drop (start + 1)) with
        | error failure => rfl
        | ok tail => rfl

/-- An unbound value is converted alike to a record of a schema, and to an object of it. -/
theorem toObject_eq_map_converting (unbound : value.Throughout IsUnbound)
    (present : value.isNull = false) (schema : Schema) :
    value.toObject catalog schema = (Record.converting catalog value schema).map asObject := by
  induction value using componentInduction generalizing schema with
  | step value ih =>
    have alike : ∀ part ∈ value.components, ∀ kind reference, part.nativeIn catalog kind reference =
        (part.storedIn catalog kind reference).map asObject :=
      fun part member kind reference =>
        nativeIn_of_nested fun present schema => ih part member (unbound.part member) present schema
    cases value with
    | null => cases present
    | record | object => exact unbound.self.elim
    | row values =>
      rw [toObject, objectOfParts, objectFields_row values 0 schema.fields alike,
        List.drop_zero, Record.converting, Record.ofValue]
      cases Record.ofRow catalog schema.fields values with
      | error failure => rfl
      | ok slots =>
        simp only [Except.map, Record.toValue, asObject, asObjects_eq_map]
    | _ => rfl

end Value

namespace Record

theorem length_of_ofRow {fields : List SchemaField} {values slots : List Value}
    (filled : ofRow catalog fields values = .ok slots) : slots.length = fields.length := by
  induction values generalizing fields slots with
  | nil =>
    cases filled
    rw [List.length_map]
  | cons value values ih =>
    cases fields with
    | nil =>
      cases filled
      rfl
    | cons field fields =>
      obtain ⟨_, _, _, others, rfl⟩ := Except.both_eq_ok_iff.mp filled
      rw [List.length_cons, ih others, List.length_cons]

/-- A row without records and objects in it is converted alike to a record and to an object of a
schema. Both conversions fail, and for the same reason; or the record has a slot for each field of
the schema, and the object is the record read field by field. -/
theorem toObject_reads_record (catalog : Catalog) (schema : Schema) (values : List Value)
    (unbound : (Value.row values).Throughout Value.IsUnbound) :
    (∃ failure, ofValue catalog schema (.row values) = .error failure ∧
      (Value.row values).toObject catalog schema = .error failure) ∨
    ∃ record, ofValue catalog schema (.row values) = .ok record ∧ record.schema = schema ∧
      record.values.length = schema.fields.length ∧
      (Value.row values).toObject catalog schema =
        .ok (.object schema.name (record.fields.map (Prod.map id Value.asObject))) := by
  have read : (Value.row values).toObject catalog schema =
      (converting catalog (.row values) schema).map Value.asObject :=
    Value.toObject_eq_map_converting unbound rfl schema
  rw [converting] at read
  cases made : ofValue catalog schema (.row values) with
  | error failure =>
    rw [made] at read
    exact .inl ⟨failure, rfl, read⟩
  | ok record =>
    obtain ⟨slots, filled, rfl⟩ := Except.map_eq_ok_iff.mp made
    rw [made, Except.map, Except.map, Value.asObject_toValue] at read
    exact .inr ⟨_, rfl, rfl, length_of_ofRow filled, read⟩

section Link

/-- A type that refers to itself, with a repeated name and a field that takes no values. -/
def linkSchema : Schema :=
  .ofFields "Link" [.scalar "label" .string, .composite "next" "Link",
    .scalar "label" .nullableInt32, .scalar "tags" .arrayOfString]

def linkCatalog : Catalog :=
  Catalog.empty.insert linkSchema

/-- A link with another one behind it, which lacks its last fields. -/
def linkValues : List Value :=
  [.bigInt 1, .row [.smallInt 2], .tinyInt 3]

/-- In the second link there is a value for the field that takes none. -/
def taggedValues : List Value :=
  [.bigInt 1, .row [.varchar "b", .null, .null, .varchar "c"]]

theorem unbound_linkValues : (Value.row linkValues).Throughout Value.IsUnbound := by
  simp only [linkValues, Value.unbound_row_iff, List.forall_mem_cons, List.not_mem_nil]
  exact ⟨Value.unbound_scalar rfl trivial, ⟨Value.unbound_scalar rfl trivial, nofun⟩,
    Value.unbound_scalar rfl trivial, nofun⟩

theorem unbound_taggedValues : (Value.row taggedValues).Throughout Value.IsUnbound := by
  simp only [taggedValues, Value.unbound_row_iff, List.forall_mem_cons, List.not_mem_nil]
  exact ⟨Value.unbound_scalar rfl trivial, ⟨Value.unbound_scalar rfl trivial,
    Value.unbound_scalar rfl trivial, Value.unbound_scalar rfl trivial,
    Value.unbound_scalar rfl trivial, nofun⟩, nofun⟩

theorem toObject_link :
    (Value.row linkValues).Throughout Value.IsUnbound ∧
    (∃ record, ofValue linkCatalog linkSchema (.row linkValues) = .ok record ∧
      (Value.row linkValues).toObject linkCatalog linkSchema =
        .ok (.object "Link" (record.fields.map (Prod.map id Value.asObject)))) ∧
    (Value.row taggedValues).Throughout Value.IsUnbound ∧
    (Value.row taggedValues).toObject linkCatalog linkSchema =
      .error (.error (.unsupportedKind .arrayOfString)) := by
  refine ⟨unbound_linkValues, ?_, unbound_taggedValues, ?_⟩
  · rcases toObject_reads_record linkCatalog linkSchema linkValues unbound_linkValues with
      ⟨failure, failed, _⟩ | ⟨record, made, _, _, read⟩
    · cases failed
    · exact ⟨record, made, read⟩
  · rcases toObject_reads_record linkCatalog linkSchema taggedValues unbound_taggedValues with
      ⟨failure, failed, same⟩ | ⟨record, made, _⟩
    · cases failed
      exact same
    · cases made

end Link

end Record

end RowProjection
