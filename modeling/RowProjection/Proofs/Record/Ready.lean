import RowProjection.Proofs.Record.Building
import RowProjection.Proofs.Record.Failures
import RowProjection.Proofs.Record.Typing

namespace RowProjection.Record

variable {catalog : Catalog} {schema : Schema} {value : Value}

/-- The records in composite slots are of the schemas that the catalog has for the references. -/
def FollowsCatalog (catalog : Catalog) (record : Record) : Prop :=
  ∀ (index : Nat) (field : SchemaField) (name : String) (inner : Schema) (values : List Value),
    record.schema.fields[index]? = some field → field.kind = .compact →
      field.reference = some name → record.values[index]? = some (.record inner values) →
        catalog.find? name = some inner

/-- A record of a schema, in which all records, however deep, are of the schemas that the catalog
has for them. -/
structure IsOf (catalog : Catalog) (schema : Schema) (record : Record) : Prop where
  own : record.schema = schema
  nested : record.toValue.Throughout (Value.OnRecord (FollowsCatalog catalog))

/-- The conversion of a value to a schema comes to convert a part of it to another schema: the value
itself, or a part for a composite field, on the way of which no record is ready. -/
inductive Descends (catalog : Catalog) : Schema → Value → Schema → Value → Prop where
  | whole {schema : Schema} {value : Value} : Descends catalog schema value schema value
  | part {schema inner target : Schema} {value part : Value} {index : Nat} {field : SchemaField}
      {name : String} (notReady : ¬ value.IsReadyFor schema)
      (fieldAt : schema.fields[index]? = some field) (composite : field.kind = .compact)
      (reference : field.reference = some name) (found : catalog.find? name = some inner)
      (deeper : Descends catalog inner (value.partAt schema index) target part) :
      Descends catalog schema value target part

/-- The conversion takes over a record that is ready where a schema is asked for. -/
def TakesOver (catalog : Catalog) (schema : Schema) (value : Value) (target : Schema)
    (ready : Record) : Prop :=
  Descends catalog schema value target ready.toValue ∧ ready.schema.name = target.name

theorem ofValue_ready {record : Record} (sameName : record.schema.name = schema.name) :
    ofValue catalog schema record.toValue = .ok record :=
  if_pos sameName

theorem exists_record_of_ready (isReady : value.IsReadyFor schema) :
    ∃ record : Record, value = record.toValue ∧ record.schema.name = schema.name := by
  cases value with
  | record own values => exact ⟨⟨own, values⟩, rfl, isReady⟩
  | _ => exact isReady.elim

theorem toValue_injective {left right : Record} (same : left.toValue = right.toValue) :
    left = right := by
  cases left
  cases right
  cases same
  rfl

/-- Null has no parts. -/
theorem Descends.present {target : Schema} {part : Value}
    (descends : Descends catalog schema value target part) (present : part.isNull = false) :
    value.isNull = false := by
  induction descends with
  | whole => exact present
  | @part schema _ _ value _ index _ _ _ _ _ _ _ _ ih =>
    cases value with
    | null => cases ih present
    | _ => rfl

/-- A ready record is all that is taken over for it. -/
theorem TakesOver.eq_of_ready {target : Schema} {record ready : Record}
    (taken : TakesOver catalog schema record.toValue target ready)
    (sameName : record.schema.name = schema.name) : target = schema ∧ ready = record := by
  obtain ⟨descends, _⟩ := taken
  generalize same : ready.toValue = part at descends
  cases descends with
  | whole => exact ⟨rfl, toValue_injective same⟩
  | part notReady => exact absurd sameName notReady

/-- What a field holds in such a record: null, a record of the schema that the catalog has for the
field, or a value without records. -/
inductive SlotOf (catalog : Catalog) (field : SchemaField) : Value → Prop where
  | null : SlotOf catalog field .null
  | nested {name : String} {inner : Schema} {record : Record}
      (reference : field.reference = some name) (found : catalog.find? name = some inner)
      (isOf : record.IsOf catalog inner) : SlotOf catalog field record.toValue
  | scalar {slot : Value} (scalar : field.kind ≠ .compact) (single : slot.components = [])
      (noRecord : slot.OnRecord fun _ => False) : SlotOf catalog field slot

theorem IsOf.of_slots {record : Record} (own : record.schema = schema)
    (complete : record.values.length = schema.fields.length)
    (filled : ∀ (index : Nat) (field : SchemaField) (slot : Value),
      schema.fields[index]? = some field → record.values[index]? = some slot →
        SlotOf catalog field slot) :
    record.IsOf catalog schema := by
  subst own
  refine ⟨rfl, Value.throughout_iff.mpr ⟨?_, ?_⟩⟩
  · intro index field name inner values fieldAt composite reference present
    generalize same : Value.record inner values = slot at present
    cases filled index field slot fieldAt present with
    | null => cases same
    | nested refers found isOf =>
      cases reference.symm.trans refers
      cases same
      rw [found, ← isOf.own]
    | scalar scalar => exact absurd composite scalar
  · intro slot member
    obtain ⟨index, below, here⟩ := List.getElem_of_mem member
    have fieldAt := List.getElem?_eq_getElem (complete ▸ below)
    cases filled index _ slot fieldAt (List.getElem?_eq_some_iff.mpr ⟨below, here⟩) with
    | null => exact Value.throughout_null
    | nested _ _ isOf => exact isOf.nested
    | scalar _ single noRecord =>
      refine (Value.throughout_iff_self single).mpr ?_
      cases slot with
      | record => exact noRecord.elim
      | _ => trivial

/-- What is stored in a field stands well in it, if the records made for it do. -/
theorem slotOf_of_storedIn {field : SchemaField} {slot : Value}
    (stored : value.storedIn catalog field.kind field.reference = .ok slot)
    (made : ∀ name inner record, field.kind = .compact → field.reference = some name →
      catalog.find? name = some inner → ofValue catalog inner value = .ok record →
        record.IsOf catalog inner) : SlotOf catalog field slot := by
  rcases convertField_cases stored with rfl | ⟨name, inner, composite, reference, found, nested⟩ |
    ⟨type, scalar, present, typed, success⟩
  · exact .null
  · obtain ⟨record, nestedMade, rfl⟩ := Except.map_eq_ok_iff.mp nested
    exact .nested reference found (made name inner record composite reference found nestedMade)
  · have held := Value.mem_fieldKinds_of_convertTo scalar present typed success
    exact .scalar scalar (Value.components_of_mem_fieldKinds held scalar)
      (Value.onRecord_of_mem_fieldKinds held scalar)

/-- Records are made for the schema asked for, unless they were ready. -/
theorem schema_of_ofValue {record : Record} (made : ofValue catalog schema value = .ok record) :
    record.schema = schema ∨ value = record.toValue ∧ record.schema.name = schema.name := by
  by_cases isReady : value.IsReadyFor schema
  · obtain ⟨own, rfl, sameName⟩ := exists_record_of_ready isReady
    rw [ofValue_ready sameName] at made
    cases made
    exact .inr ⟨rfl, sameName⟩
  · exact .inl (slots_of_ofValue isReady made).1

/-- What a conversion of the value puts into slots: null, records made of its parts, and scalars. -/
inductive MadeOf (catalog : Catalog) (value : Value) : Value → Prop where
  | null : MadeOf catalog value .null
  | nested {part : Value} {inner : Schema} {record : Record} (member : part ∈ value.components)
      (made : ofValue catalog inner part = .ok record) : MadeOf catalog value record.toValue
  | scalar {kind : FieldKind} {slot : Value} (held : kind ∈ slot.fieldKinds)
      (scalar : kind ≠ .compact) : MadeOf catalog value slot

/-- The value is a record that is taken over, or its parts are converted for one slot each. -/
theorem ofValue_cases {record : Record} (made : ofValue catalog schema value = .ok record) :
    value = record.toValue ∨ record.values.length = record.schema.fields.length ∧
      ∀ slot ∈ record.values, MadeOf catalog value slot := by
  by_cases isReady : value.IsReadyFor schema
  · obtain ⟨own, rfl, sameName⟩ := exists_record_of_ready isReady
    rw [ofValue_ready sameName] at made
    cases made
    exact .inl rfl
  · obtain ⟨rfl, complete, filled⟩ := slots_of_ofValue isReady made
    refine .inr ⟨complete, fun slot member => ?_⟩
    obtain ⟨index, below, rfl⟩ := List.getElem_of_mem member
    obtain ⟨slot, present, stored⟩ := filled index _ (List.getElem?_eq_getElem (complete ▸ below))
    rw [List.getElem?_eq_getElem below] at present
    cases present
    rcases convertField_cases stored with null | ⟨_, inner, _, _, _, nested⟩ |
      ⟨type, scalar, present, typed, success⟩
    · rw [null]
      exact .null
    · obtain ⟨nestedRecord, nestedMade, same⟩ := Except.map_eq_ok_iff.mp nested
      rw [← same]
      -- Where there is no part the slot is filled with null, of which no record is made.
      rcases value.partAt_cases record.schema index with null | part
      · rw [null] at nestedMade
        cases nestedMade
      · exact .nested part nestedMade
    · exact .scalar (Value.mem_fieldKinds_of_convertTo scalar present typed success) scalar

/-- The result is one of the schema asked for, down to every depth, exactly if the records taken
over are. -/
theorem isOf_iff_takesOver {record : Record} (made : ofValue catalog schema value = .ok record) :
    record.IsOf catalog schema ↔
      ∀ target ready, TakesOver catalog schema value target ready → ready.IsOf catalog target := by
  induction value using Value.componentInduction generalizing schema record with
  | step value ih =>
    by_cases isReady : value.IsReadyFor schema
    · obtain ⟨own, rfl, sameName⟩ := exists_record_of_ready isReady
      rw [ofValue_ready sameName] at made
      cases made
      constructor
      · intro isOf target ready taken
        obtain ⟨rfl, rfl⟩ := taken.eq_of_ready sameName
        exact isOf
      · intro all
        exact all schema record ⟨.whole, sameName⟩
    · obtain ⟨sameSchema, complete, slots⟩ := slots_of_ofValue isReady made
      -- A part is null, of which no record is made, or it is smaller than the value.
      have ofPart (index : Nat) (inner : Schema) (nested : Record)
          (made : ofValue catalog inner (value.partAt schema index) = .ok nested) :
          nested.IsOf catalog inner ↔ ∀ target ready,
            TakesOver catalog inner (value.partAt schema index) target ready →
              ready.IsOf catalog target := by
        rcases value.partAt_cases schema index with null | member
        · rw [null] at made
          cases made
        · exact ih _ member made
      constructor
      · rintro isOf target ready ⟨descends, sameName⟩
        generalize same : ready.toValue = part at descends
        cases descends with
        | whole =>
          subst same
          exact absurd sameName isReady
        | @part _ inner _ _ _ index field name _ fieldAt composite reference found deeper =>
          subst same
          obtain ⟨slot, present, stored⟩ := slots index field fieldAt
          rw [Value.storedIn,
            convertField_nested (deeper.present rfl) composite reference found] at stored
          obtain ⟨nested, nestedMade, rfl⟩ := Except.map_eq_ok_iff.mp stored
          have known := isOf.nested.self index field name nested.schema nested.values
            (by rw [sameSchema]; exact fieldAt) composite reference present
          refine (ofPart index inner nested nestedMade).mp ⟨?_, ?_⟩ target ready ⟨deeper, sameName⟩
          · exact Option.some.inj (known.symm.trans found)
          · exact isOf.nested.part (List.mem_of_getElem? present)
      · intro all
        refine .of_slots sameSchema complete fun index field slot fieldAt present => ?_
        obtain ⟨other, stands, stored⟩ := slots index field fieldAt
        cases stands.symm.trans present
        refine slotOf_of_storedIn stored fun name inner nested composite reference found made => ?_
        refine (ofPart index inner nested made).mpr fun target ready taken => ?_
        exact all target ready
          ⟨.part isReady fieldAt composite reference found taken.1, taken.2⟩

/-- The records that a conversion makes, for the value and for the parts of it that fill composite
slots, are of the schemas asked for exactly if the ready ones among them are, which are recognised
by their name only. The same holds of the result with all records in it, however deep. -/
theorem schemas_of_made (catalog : Catalog) (schema : Schema) (value : Value) (record : Record)
    (made : ofValue catalog schema value = .ok record) :
    ((∀ target part stored, Descends catalog schema value target part →
        ofValue catalog target part = .ok stored → stored.schema = target) ↔
      ∀ target ready, TakesOver catalog schema value target ready → ready.schema = target) ∧
    (record.IsOf catalog schema ↔
      ∀ target ready, TakesOver catalog schema value target ready →
        ready.IsOf catalog target) := by
  refine ⟨⟨?_, ?_⟩, isOf_iff_takesOver made⟩
  · rintro all target ready ⟨descends, sameName⟩
    exact all target _ ready descends (ofValue_ready sameName)
  · intro all target part stored descends storedMade
    rcases schema_of_ofValue storedMade with same | ⟨rfl, sameName⟩
    · exact same
    · exact all target stored ⟨descends, sameName⟩

section Parcels

/-- A schema as it was before its fields were put in another order. -/
def earlierParcelSchema : Schema :=
  .ofFields "Parcel" [.scalar "weight" .nullableInt32, .scalar "label" .string]

def parcelSchema : Schema :=
  .ofFields "Parcel" [.scalar "label" .string, .scalar "weight" .nullableInt32]

def shipmentSchema : Schema :=
  .ofFields "Shipment" [.composite "parcel" "Parcel"]

def parcelCatalog : Catalog :=
  ((Catalog.empty.insert earlierParcelSchema).insert shipmentSchema).replace parcelSchema

/-- A record from before. -/
def earlierParcel : Record :=
  ⟨earlierParcelSchema, [.int 2, .varchar "books"]⟩

/-- A shipment of an earlier record keeps it, which is none of the present schema. -/
theorem isOf_shipment : ∃ record,
    ofValue parcelCatalog shipmentSchema (.row [earlierParcel.toValue]) = .ok record ∧
      ¬ record.IsOf parcelCatalog shipmentSchema := by
  refine ⟨_, rfl, fun isOf => ?_⟩
  have all := (schemas_of_made parcelCatalog shipmentSchema (.row [earlierParcel.toValue]) _
    rfl).2.mp isOf
  have taken : TakesOver parcelCatalog shipmentSchema (.row [earlierParcel.toValue]) parcelSchema
      earlierParcel :=
    ⟨.part id (show shipmentSchema.fields[0]? = _ from rfl) rfl rfl rfl .whole, rfl⟩
  exact absurd (all parcelSchema earlierParcel taken).own (by decide)

/-- A record from before is taken for one of the present schema. -/
theorem earlierParcel_taken_over : parcelCatalog.find? "Parcel" = some parcelSchema ∧
    ofValue parcelCatalog parcelSchema earlierParcel.toValue = .ok earlierParcel ∧
    earlierParcel.schema ≠ parcelSchema :=
  ⟨rfl, rfl, by decide⟩

end Parcels

end RowProjection.Record
