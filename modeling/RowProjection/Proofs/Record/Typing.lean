import RowProjection.Proofs.Record.Building
import RowProjection.Proofs.Record.Kinds
import RowProjection.Proofs.Value.Conversion

namespace RowProjection

/-- The values that a field holds under a catalog: null, scalars of its kind, and for composite
fields the records of the schema that the field refers to. -/
inductive SchemaField.Stores (catalog : Catalog) (field : SchemaField) : Value → Prop where
  | null : Stores catalog field .null
  | scalar {value : Value} (held : field.kind ∈ value.fieldKinds) (scalar : field.kind ≠ .compact) :
      Stores catalog field value
  | nested {name : String} {schema : Schema} {values : List Value}
      (composite : field.kind = .compact) (reference : field.reference = some name)
      (found : catalog.find? name = some schema) :
      Stores catalog field (.record schema values)

namespace Record

/-- One value for each field, among those that the field holds under the catalog. -/
def IsTyped (catalog : Catalog) (record : Record) : Prop :=
  List.Forall₂ (SchemaField.Stores catalog) record.schema.fields record.values

/-- The record and all records within it are typed. -/
def WellTyped (catalog : Catalog) (record : Record) : Prop :=
  record.toValue.Throughout (Value.OnRecord (IsTyped catalog))

end Record

/-- All records within a value are typed, and of the schemas that the catalog has under their
names. -/
def Value.BoundTo (catalog : Catalog) (value : Value) : Prop :=
  value.Throughout <| OnRecord fun record =>
    catalog.find? record.schema.name = some record.schema ∧ record.IsTyped catalog

theorem SchemaField.Stores.holds {catalog : Catalog} {field : SchemaField} {value : Value}
    (stores : field.Stores catalog value) : field.Holds value := by
  cases stores with
  | null => exact .inl rfl
  | scalar held => exact .inr held
  | nested composite => exact .inr (List.mem_singleton.mpr composite)

theorem Record.WellTyped.wellKinded {catalog : Catalog} {record : Record}
    (typed : record.WellTyped catalog) : record.WellKinded := by
  intro inner occurs
  have here := typed inner occurs
  cases inner with
  | record schema values => exact here.imp fun _ _ => SchemaField.Stores.holds
  | _ => trivial

/-- A record has bytes unless a text within it is too long for them. -/
def Record.FailsOnlyForLongText (record : Record) : Prop :=
  ∀ error, record.toBytes = .error error →
    error = .encoding .textTooLong ∧
      ∃ text : Value, text.OccursIn record.toValue ∧ text.IsLongText

theorem Record.WellTyped.failsOnlyForLongText {catalog : Catalog} {record : Record}
    (typed : record.WellTyped catalog) : record.FailsOnlyForLongText := by
  intro error failed
  rcases Record.encode_cases typed.wellKinded with ⟨bytes, encoded⟩ | ⟨fault, long⟩
  · rw [toBytes, encoded] at failed
    cases failed
  · rw [toBytes, fault] at failed
    cases failed
    exact ⟨rfl, long⟩

/-- A conversion for a field answers null, a record of the schema that the field refers to, or the
value in the type of the field. -/
theorem convertField_cases {catalog : Catalog} {owner : TypeKind} {kind : FieldKind}
    {reference : Option String} {value converted : Value} {nested : Schema → Except Failure Value}
    (success : convertField catalog owner kind reference value nested = .ok converted) :
    converted = .null ∨
      (∃ name schema, kind = .compact ∧ reference = some name ∧ catalog.find? name = some schema ∧
        nested schema = .ok converted) ∨
      ∃ type, kind ≠ .compact ∧ value.isNull = false ∧ kind.dataType? reference owner = some type ∧
        value.convertTo type = .ok converted := by
  unfold convertField at success
  by_cases null : value.isNull = true
  · rw [if_pos null] at success
    exact .inl (Except.ok.inj success).symm
  · rw [if_neg null] at success
    split at success
    · next name =>
      split at success
      · next schema found => exact .inr (.inl ⟨name, schema, rfl, rfl, found, success⟩)
      · cases success
    · next noReference =>
      split at success
      · next type typed =>
        refine .inr (.inr ⟨type, ?_, Bool.eq_false_iff.mpr null, typed, success⟩)
        rintro rfl
        obtain ⟨name, reference, _⟩ := Option.map_eq_some_iff.mp typed
        exact noReference name rfl reference
      · cases success

namespace Value

/-- A conversion to the type of a scalar field answers a value that the field holds. -/
theorem mem_fieldKinds_of_convertTo {value converted : Value} {kind : FieldKind}
    {reference : Option String} {owner : TypeKind} {type : DataType} (scalar : kind ≠ .compact)
    (present : value.isNull = false) (typed : kind.dataType? reference owner = some type)
    (success : value.convertTo type = .ok converted) : kind ∈ converted.fieldKinds := by
  have formed := (convertTo_eq_ok_iff (isNull_eq_false_iff.mp present)).mp success
  cases kind with
  | compact => exact absurd rfl scalar
  | arrayOfString | arrayOfInt64 | arrayOfCompact => cases typed
  | string =>
    cases typed
    cases formed
    exact List.mem_singleton.mpr rfl
  | date | timestamp =>
    cases typed
    obtain ⟨content?, _, same⟩ := Except.map_eq_ok_iff.mp formed
    obtain ⟨content, _, rfl⟩ := Option.map_eq_some_iff.mp same
    exact List.mem_singleton.mpr rfl
  | _ =>
    cases typed
    obtain ⟨content, _, rfl⟩ := Option.map_eq_some_iff.mp (Except.ok.inj formed)
    simp [fieldKinds]

end Value

namespace Record

variable {catalog : Catalog}

/-- A value that a field holds, in which all records are typed. -/
def Fills (catalog : Catalog) (field : SchemaField) (value : Value) : Prop :=
  field.Stores catalog value ∧ value.Throughout (Value.OnRecord (IsTyped catalog))

/-- The records made from a value are typed, and of the schema asked for where the catalog has
it. -/
def Converts (catalog : Catalog) (value : Value) : Prop :=
  ∀ schema record, ofValue catalog schema value = .ok record →
    record.WellTyped catalog ∧ (catalog.find? schema.name = some schema → record.schema = schema)

theorem fills_null (field : SchemaField) : Fills catalog field .null :=
  ⟨.null, Value.throughout_null⟩

theorem fills_emptySlots (fields : List SchemaField) :
    List.Forall₂ (Fills catalog) fields (fields.map fun _ => .null) := by
  rw [List.forall₂_map_right_iff, List.forall₂_same]
  exact fun field _ => fills_null field

theorem parts_of_fills {fields : List SchemaField} {values : List Value}
    (filled : List.Forall₂ (Fills catalog) fields values) :
    ∀ part ∈ values, part.Throughout (Value.OnRecord (IsTyped catalog)) := by
  induction filled with
  | nil => simp
  | cons fills _ ih => exact List.forall_mem_cons.mpr ⟨fills.2, ih⟩

theorem wellTyped_of_fills {schema : Schema} {values : List Value}
    (filled : List.Forall₂ (Fills catalog) schema.fields values) :
    WellTyped catalog ⟨schema, values⟩ :=
  Value.throughout_iff.mpr ⟨filled.imp fun _ _ => And.left, parts_of_fills filled⟩

theorem fills_set {fields : List SchemaField} {slots : List Value} {field : SchemaField}
    {index : Nat} {value : Value} (filled : List.Forall₂ (Fills catalog) fields slots)
    (found : fields[index]? = some field) (fills : Fills catalog field value) :
    List.Forall₂ (Fills catalog) fields (slots.set index value) := by
  induction filled generalizing index with
  | nil => exact .nil
  | cons head rest ih =>
    cases index with
    | zero =>
      cases found
      exact .cons fills rest
    | succ index => exact .cons head (ih found)

/-- What is converted for a field fills it. -/
theorem fills_of_convertField {field : SchemaField} {value converted : Value}
    (converts : Converts catalog value)
    (success : convertField catalog .compact field.kind field.reference value (fun schema =>
      (ofValue catalog schema value).map toValue) = .ok converted) :
    Fills catalog field converted := by
  rcases convertField_cases success with null | ⟨name, schema, composite, reference, found, made⟩ |
    ⟨type, scalar, present, typed, success⟩
  · subst null
    exact fills_null field
  · obtain ⟨record, ofSchema, rfl⟩ := Except.map_eq_ok_iff.mp made
    obtain ⟨typed, bound⟩ := converts schema record ofSchema
    have known : catalog.find? schema.name = some schema := by
      rw [catalog.named name schema found]
      exact found
    refine ⟨?_, typed⟩
    rw [toValue, bound known]
    exact .nested composite reference found
  · have held := Value.mem_fieldKinds_of_convertTo scalar present typed success
    exact ⟨.scalar held scalar, Value.throughout_of_mem_fieldKinds held scalar⟩

theorem fills_fillSlot {schema : Schema} {name : String} {value : Value}
    {slots filledSlots : List Value} (converts : Converts catalog value)
    (filled : List.Forall₂ (Fills catalog) schema.fields slots)
    (success : fillSlot catalog schema name value (fun schema =>
      (ofValue catalog schema value).map toValue) slots = .ok filledSlots) :
    List.Forall₂ (Fills catalog) schema.fields filledSlots := by
  rw [fillSlot] at success
  split at success
  · next field index found =>
    obtain ⟨converted, stored, rfl⟩ := Except.map_eq_ok_iff.mp success
    exact fills_set filled (Schema.getElem?_of_field? found) (fills_of_convertField converts stored)
  · cases success
    exact filled

theorem fills_ofRow {fields : List SchemaField} {values slots : List Value}
    (converts : ∀ value ∈ values, Converts catalog value)
    (success : ofRow catalog fields values = .ok slots) :
    List.Forall₂ (Fills catalog) fields slots := by
  induction values generalizing fields slots with
  | nil =>
    cases success
    exact fills_emptySlots fields
  | cons value values ih =>
    cases fields with
    | nil =>
      cases success
      exact .nil
    | cons field fields =>
      obtain ⟨head, tail, converted, others, rfl⟩ := Except.both_eq_ok_iff.mp success
      rw [List.forall_mem_cons] at converts
      exact .cons (fills_of_convertField converts.1 converted) (ih converts.2 others)

theorem fills_ofObjectFields {schema : Schema} {fields : List (String × Value)}
    {slots filledSlots : List Value}
    (converts : ∀ value ∈ fields.map (·.2), Converts catalog value)
    (filled : List.Forall₂ (Fills catalog) schema.fields slots)
    (success : ofObjectFields catalog schema fields slots = .ok filledSlots) :
    List.Forall₂ (Fills catalog) schema.fields filledSlots := by
  induction fields generalizing slots with
  | nil =>
    cases success
    exact filled
  | cons field fields ih =>
    obtain ⟨next, written, success⟩ := Except.bind_eq_ok_iff.mp success
    rw [List.map_cons, List.forall_mem_cons] at converts
    exact ih converts.2 (fills_fillSlot converts.1 filled written) success

theorem fills_ofRecordFields {schema : Schema} {names : List String}
    {values slots filledSlots : List Value} (converts : ∀ value ∈ values, Converts catalog value)
    (filled : List.Forall₂ (Fills catalog) schema.fields slots)
    (success : ofRecordFields catalog schema names values slots = .ok filledSlots) :
    List.Forall₂ (Fills catalog) schema.fields filledSlots := by
  rw [ofRecordFields_eq] at success
  exact fills_ofObjectFields (fun value member => converts value (Value.mem_of_mem_zip member))
    filled success

/-- Rows, records and objects are converted to typed records at any depth. A record is taken over
as it is only under its own name, where the catalog has its schema. -/
theorem converts {value : Value} (bound : value.BoundTo catalog) : Converts catalog value := by
  induction value using Value.componentInduction with
  | step value ih =>
    have parts : ∀ part ∈ value.components, Converts catalog part :=
      fun part member => ih part member (bound.part member)
    intro schema record success
    cases value with
    | record own values =>
      rw [ofValue] at success
      split at success
      · next sameName =>
        cases success
        refine ⟨fun inner occurs => ?_, fun known => ?_⟩
        · have here := bound inner occurs
          cases inner with
          | record => exact here.2
          | _ => trivial
        · -- The catalog has one schema under the name that both share.
          have ownKnown : catalog.find? own.name = some own := bound.self.1
          rw [sameName, known] at ownKnown
          exact (Option.some.inj ownKnown).symm
      · obtain ⟨slots, filled, rfl⟩ := Except.map_eq_ok_iff.mp success
        exact ⟨wellTyped_of_fills (fills_ofRecordFields parts (fills_emptySlots _) filled),
          fun _ => rfl⟩
    | row values =>
      obtain ⟨slots, filled, rfl⟩ := Except.map_eq_ok_iff.mp success
      exact ⟨wellTyped_of_fills (fills_ofRow parts filled), fun _ => rfl⟩
    | object typeName fields =>
      obtain ⟨slots, filled, rfl⟩ := Except.map_eq_ok_iff.mp success
      exact ⟨wellTyped_of_fills (fills_ofObjectFields parts (fills_emptySlots _) filled),
        fun _ => rfl⟩
    | _ => cases success

end Record

end RowProjection
