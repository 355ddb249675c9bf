import RowProjection.Proofs.Record.Paths
import RowProjection.Proofs.Record.Positions
import RowProjection.Proofs.Record.Ready
import RowProjection.Proofs.Value.Types

/-! Records that move to a schema of another name and back. Values that a field holds are stored in
it as they are, and each field of a schema with distinct names takes what stands under its name. So
a schema that has all fields of another one keeps whatever comes from there. -/

namespace RowProjection

variable {catalog : Catalog} {schema : Schema} {value : Value} {field : SchemaField}

/-- The values that a scalar field holds are of the type of its kind. -/
theorem Value.exists_type_of_mem_fieldKinds {kind : FieldKind} (held : kind ∈ value.fieldKinds)
    (scalar : kind ≠ .compact) (reference : Option String) (owner : TypeKind) :
    ∃ type, kind.dataType? reference owner = some type ∧ value.HasType type ∧
      (type = .real → kind = .nullableFloat32 ∨ kind = .float32) := by
  cases value with
  | record => exact absurd (List.mem_singleton.mp held) scalar
  | null | json | map | row | object | bytes => cases held
  | boolean | tinyInt | smallInt | int | bigInt | real | double =>
    rcases List.mem_pair.mp held with rfl | rfl <;> exact ⟨_, rfl, .own rfl, by simp⟩
  | varchar | decimal | date | time | timestamp | timestampTz =>
    cases List.mem_singleton.mp held
    exact ⟨_, rfl, .own rfl, by simp⟩

/-- A field stores a value as it is. -/
def SchemaField.Keeps (catalog : Catalog) (field : SchemaField) (value : Value) : Prop :=
  value.storedIn catalog field.kind field.reference = .ok value

/-- What a field holds is stored in it as it is. Floats of 32 bits would take the way over 64, and
records must be of the type that the field refers to. -/
theorem SchemaField.keeps_of_holds (holds : field.Holds value)
    (wide : field.kind ≠ .nullableFloat32 ∧ field.kind ≠ .float32)
    (referred : ∀ inner values, value = .record inner values →
      field.reference = some inner.name ∧ ∃ known, catalog.find? inner.name = some known) :
    field.Keeps catalog value := by
  rcases holds with rfl | held
  · rfl
  · have present := Value.isNull_of_mem_fieldKinds held
    by_cases composite : field.kind = .compact
    · obtain ⟨inner, values, rfl⟩ := Value.exists_record (composite ▸ held)
      obtain ⟨refers, known, found⟩ := referred inner values rfl
      have ready : Record.ofValue catalog known (.record inner values) = .ok ⟨inner, values⟩ :=
        if_pos (catalog.named _ _ found).symm
      rw [Keeps, Value.storedIn, convertField_nested present composite refers found, ready]
      rfl
    · obtain ⟨type, typed, hasType, single⟩ :=
        Value.exists_type_of_mem_fieldKinds held composite field.reference .compact
      rw [Keeps, Value.storedIn, convertField_scalar present fun _ same => absurd same composite,
        typed]
      refine Value.convertTo_of_hasType hasType fun real => ?_
      rcases single real with kind | kind
      · exact wide.1 kind
      · exact wide.2 kind

namespace RecordBuilder

/-- Parts that their fields take are all stored. -/
theorem exists_setAll {parts : List (Nat × Value)} {builder : RecordBuilder}
    (complete : builder.slots.length = builder.schema.fields.length)
    (taken : ∀ part ∈ parts, ∃ field converted, builder.schema.fields[part.1]? = some field ∧
      part.2.storedIn catalog field.kind field.reference = .ok converted) :
    ∃ after, setAll catalog parts builder = .ok after := by
  induction parts generalizing builder with
  | nil => exact ⟨builder, rfl⟩
  | cons part parts ih =>
    rw [List.forall_mem_cons] at taken
    obtain ⟨⟨field, converted, fieldAt, stored⟩, taken⟩ := taken
    have inside : part.1 < builder.slots.length := by
      rw [complete]
      exact (List.getElem?_eq_some_iff.mp fieldAt).1
    have step := setConverted_of_field catalog builder part.2 fieldAt inside
    obtain ⟨after, done⟩ :=
      @ih { builder with slots := builder.slots.set part.1 converted } (by simpa using complete)
        taken
    refine ⟨after, Except.bind_eq_ok_iff.mpr ⟨_, ?_, done⟩⟩
    rw [step, stored]
    rfl

end RecordBuilder

/-- At distinct places each holds the one part for it. -/
theorem lastPlaced?_eq_some_iff {parts : List (Nat × Value)} {index : Nat}
    (distinct : (parts.map (·.1)).Nodup) :
    lastPlaced? parts index = some value ↔ (index, value) ∈ parts := by
  rw [lastPlaced?, Option.map_eq_some_iff]
  constructor
  · rintro ⟨part, found, rfl⟩
    have member := List.mem_reverse.mp (List.mem_of_find?_eq_some found)
    have place : part.1 = index := by simpa using List.find?_some found
    rwa [← place]
  · intro member
    cases found : parts.reverse.find? (·.1 = index) with
    | none =>
      have missing := List.find?_eq_none.mp found _ (List.mem_reverse.mpr member)
      simp at missing
    | some part =>
      have other := List.mem_reverse.mp (List.mem_of_find?_eq_some found)
      have place : part.1 = index := by simpa using List.find?_some found
      cases List.inj_on_of_nodup_map distinct other member place
      exact ⟨_, rfl, rfl⟩

namespace Value

variable {entries : List (String × Value)}

/-- Distinct names lead to distinct places. -/
theorem distinct_placedNamed (keys : (entries.map (·.1)).Nodup) :
    ((placedNamed schema entries).map (·.1)).Nodup := by
  have places : (placedNamed schema entries).map (·.1) =
      (entries.map (·.1)).filterMap fun name => (schema.field? name).map (·.2) := by
    rw [placedNamed, List.map_filterMap, List.filterMap_map]
    congr 1
    funext entry
    exact Option.map_map ..
  rw [places]
  refine keys.filterMap fun name other index found again => ?_
  obtain ⟨⟨field, _⟩, first, rfl⟩ := Option.map_eq_some_iff.mp found
  obtain ⟨⟨twin, _⟩, second, same⟩ := Option.map_eq_some_iff.mp again
  dsimp only at same
  subst same
  have one := Schema.field?_eq_some_iff.mp first
  have two := Schema.field?_eq_some_iff.mp second
  cases one.here.symm.trans two.here
  exact one.named.symm.trans two.named

/-- A field of a schema with distinct names is filled with what stands under its name. -/
theorem lastPlaced?_placedNamed (distinct : (schema.fields.map (·.name)).Nodup)
    (keys : (entries.map (·.1)).Nodup) {index : Nat}
    (fieldAt : schema.fields[index]? = some field) :
    lastPlaced? (placedNamed schema entries) index = named? entries field.name := by
  apply Option.ext
  intro value
  rw [lastPlaced?_eq_some_iff (distinct_placedNamed keys), named?_eq_some_iff keys, placedNamed,
    List.mem_filterMap]
  have found := Schema.field?_of_distinct distinct fieldAt
  constructor
  · rintro ⟨⟨name, part⟩, member, placed⟩
    obtain ⟨⟨other, place⟩, known, same⟩ := Option.map_eq_some_iff.mp placed
    cases same
    have here := Schema.field?_eq_some_iff.mp known
    cases here.here.symm.trans fieldAt
    rwa [here.named]
  · intro member
    exact ⟨_, member, by rw [found]; rfl⟩

end Value

namespace Record

variable {entries : List (String × Value)} {source : Value} {typeName : String}
  {record : Record} {index : Nat}

/-- The slots of a schema filled with what stands under the names of its fields. -/
def adopted (schema : Schema) (entries : List (String × Value)) : List Value :=
  schema.fields.map fun field => (Value.named? entries field.name).getD .null

theorem adopted_of_field (fieldAt : schema.fields[index]? = some field) :
    (adopted schema entries)[index]? = some ((Value.named? entries field.name).getD .null) := by
  rw [adopted, List.getElem?_map, fieldAt, Option.map_some]

/-- A schema with distinct names adopts the values of a record or an object with distinct names, if
its fields keep these. -/
theorem ofValue_adopted (matched : source.byName? = some (typeName, entries))
    (other : typeName ≠ schema.name) (distinct : (schema.fields.map (·.name)).Nodup)
    (keys : (entries.map (·.1)).Nodup)
    (kept : ∀ field ∈ schema.fields,
      field.Keeps catalog ((Value.named? entries field.name).getD .null)) :
    ofValue catalog schema source = .ok ⟨schema, adopted schema entries⟩ := by
  have placed : source.placed schema = Value.placedNamed schema entries := by
    cases source with
    | record | object =>
      cases matched
      rfl
    | _ => cases matched
  have notReady : ¬ source.IsReadyFor schema := by
    cases source with
    | record =>
      cases matched
      exact other
    | _ => exact id
  have taken : ∀ part ∈ Value.placedNamed schema entries, ∃ field converted,
      schema.fields[part.1]? = some field ∧
        part.2.storedIn catalog field.kind field.reference = .ok converted := by
    rintro ⟨index, part⟩ member
    obtain ⟨⟨name, value⟩, present, same⟩ := List.mem_filterMap.mp member
    obtain ⟨⟨field, place⟩, found, same⟩ := Option.map_eq_some_iff.mp same
    cases same
    have first := Schema.field?_eq_some_iff.mp found
    have keeps := kept field (List.mem_of_getElem? first.here)
    rw [first.named, (Value.named?_eq_some_iff keys).mpr present, Option.getD_some] at keeps
    exact ⟨field, _, first.here, keeps⟩
  obtain ⟨after, done⟩ :=
    @RecordBuilder.exists_setAll catalog _ (.new schema) (List.length_map _) taken
  have made : ofValue catalog schema source = .ok after.build := by
    rw [ofValue_of_byName? matched other, done]
    rfl
  obtain ⟨own, complete, filled⟩ := slots_of_ofValue notReady made
  have same : after.build.values = adopted schema entries := by
    refine List.ext_getElem? fun index => ?_
    cases fieldAt : schema.fields[index]? with
    | none =>
      have beyond := List.getElem?_eq_none_iff.mp fieldAt
      rw [List.getElem?_eq_none (by omega), adopted, List.getElem?_map, fieldAt, Option.map_none]
    | some field =>
      obtain ⟨slot, present, stored⟩ := filled index field fieldAt
      have keeps := kept field (List.mem_of_getElem? fieldAt)
      rw [Value.partAt, placed, Value.lastPlaced?_placedNamed distinct keys fieldAt, keeps]
        at stored
      rw [present, adopted_of_field fieldAt, Except.ok.inj stored]
  rw [made, ← same, ← own]

/-- The values of a record stand under the names of its fields. -/
theorem named?_fields (distinct : (record.schema.fields.map (·.name)).Nodup)
    (complete : record.values.length = record.schema.fields.length)
    (fieldAt : record.schema.fields[index]? = some field) :
    Value.named? record.fields field.name = record.values[index]? := by
  have inside : index < record.values.length := by
    rw [complete]
    exact (List.getElem?_eq_some_iff.mp fieldAt).1
  have present := List.getElem?_eq_getElem inside
  rw [present]
  exact Value.named?_zip (Schema.field?_of_distinct distinct fieldAt) present

theorem distinct_fields (distinct : (record.schema.fields.map (·.name)).Nodup)
    (complete : record.values.length = record.schema.fields.length) :
    (record.fields.map (·.1)).Nodup := by
  rwa [fields, List.map_fst_zip (by simp [complete])]

/-- What a larger schema has adopted from a record stands there under the same names. -/
theorem named?_fields_adopted {target : Schema}
    (distinct : (target.fields.map (·.name)).Nodup) (member : field ∈ target.fields) :
    Value.named? (Record.fields ⟨target, adopted target entries⟩) field.name =
      some ((Value.named? entries field.name).getD .null) := by
  obtain ⟨index, fieldAt⟩ := List.mem_iff_getElem?.mp member
  rw [← adopted_of_field fieldAt]
  exact @named?_fields _ ⟨target, adopted target entries⟩ _ distinct (List.length_map _) fieldAt

/-- A smaller schema adopts from there what it would adopt at first hand. -/
theorem adopted_again {own target : Schema} (distinct : (target.fields.map (·.name)).Nodup)
    (declares : ∀ field ∈ own.fields, field ∈ target.fields) :
    adopted own (Record.fields ⟨target, adopted target entries⟩) = adopted own entries := by
  apply List.map_congr_left
  intro field member
  rw [named?_fields_adopted distinct (declares field member), Option.getD_some]

/-- A schema adopts its own record as it is. -/
theorem adopted_fields (distinct : (record.schema.fields.map (·.name)).Nodup)
    (complete : record.values.length = record.schema.fields.length) :
    adopted record.schema record.fields = record.values := by
  refine List.ext_getElem (by rw [adopted, List.length_map, complete]) fun index _ inside => ?_
  have fieldAt := List.getElem?_eq_getElem (complete ▸ inside)
  apply Option.some.inj
  rw [← List.getElem?_eq_getElem, adopted_of_field fieldAt,
    named?_fields distinct complete fieldAt, List.getElem?_eq_getElem inside, Option.getD_some]

/-- The fields of a larger schema keep what they adopt, if those of the record do. -/
theorem keeps_adopted {target : Schema} (distinct : (target.fields.map (·.name)).Nodup)
    (declares : ∀ field ∈ record.schema.fields, field ∈ target.fields)
    (kept : ∀ (index : Nat) (field : SchemaField) (slot : Value),
      record.schema.fields[index]? = some field → record.values[index]? = some slot →
        field.Keeps catalog slot) (member : field ∈ target.fields) :
    field.Keeps catalog ((Value.named? record.fields field.name).getD .null) := by
  cases found : Value.named? record.fields field.name with
  | none => rfl
  | some slot =>
    obtain ⟨index, zipped⟩ := List.mem_iff_getElem?.mp (Value.entry_of_named? found)
    obtain ⟨named, present⟩ := List.getElem?_zip_eq_some.mp zipped
    rw [List.getElem?_map] at named
    obtain ⟨own, ownAt, same⟩ := Option.map_eq_some_iff.mp named
    have declared := declares own (List.mem_of_getElem? ownAt)
    cases List.inj_on_of_nodup_map distinct declared member same
    exact kept index field slot ownAt present

/-- Let a schema of another name have all fields of the schema of a record, in any order and among
others, none of the fields being a float of 32 bits. Let each field of the record hold null or a
value of its kind, and each composite field null or a record of the type that it refers to, all
these types being declared. Then the record moves to the other schema, where the other fields are
null, and back to what it was. -/
theorem migrated_and_back (catalog : Catalog) (source target : Schema) (values : List Value)
    (otherName : source.name ≠ target.name)
    (distinct : (source.fields.map (·.name)).Nodup)
    (targetDistinct : (target.fields.map (·.name)).Nodup)
    (declares : ∀ field ∈ source.fields, field ∈ target.fields)
    (wide : ∀ field ∈ source.fields,
      field.kind ≠ .nullableFloat32 ∧ field.kind ≠ .float32)
    (declared : ∀ name ∈ source.references, catalog.contains name = true)
    (kinded : IsKinded ⟨source, values⟩)
    (referred : ∀ (index : Nat) (field : SchemaField) (inner : Schema) (parts : List Value),
      source.fields[index]? = some field → values[index]? = some (.record inner parts) →
        field.reference = some inner.name) :
    ∃ moved, ofValue catalog target (.record source values) = .ok ⟨target, moved⟩ ∧
      ofValue catalog source (.record target moved) = .ok ⟨source, values⟩ ∧
      ∀ (index : Nat) (field : SchemaField), target.fields[index]? = some field →
        field.name ∉ source.fields.map (·.name) → moved[index]? = some .null := by
  have complete : values.length = source.fields.length := kinded.length_eq.symm
  have kept (index : Nat) (field : SchemaField) (slot : Value)
      (fieldAt : source.fields[index]? = some field) (present : values[index]? = some slot) :
      field.Keeps catalog slot := by
    have member := List.mem_of_getElem? fieldAt
    have holds : field.Holds slot :=
      (List.forall₂_iff_zip.mp kinded).2
        (List.mem_of_getElem? (List.getElem?_zip_eq_some.mpr ⟨fieldAt, present⟩))
    refine SchemaField.keeps_of_holds holds (wide field member) fun inner parts same => ?_
    subst same
    have refers := referred index field inner parts fieldAt present
    have known := declared inner.name (List.mem_filterMap.mpr ⟨field, member, refers⟩)
    exact ⟨refers, Option.isSome_iff_exists.mp known⟩
  have keptThere (field : SchemaField) (member : field ∈ target.fields) :
      field.Keeps catalog ((Value.named? (fields ⟨source, values⟩) field.name).getD .null) :=
    keeps_adopted targetDistinct declares kept member
  refine ⟨adopted target (fields ⟨source, values⟩), ?_, ?_, ?_⟩
  · exact ofValue_adopted rfl otherName targetDistinct (distinct_fields distinct complete) keptThere
  · have keys := @distinct_fields ⟨target, adopted target (fields ⟨source, values⟩)⟩
      targetDistinct (List.length_map _)
    rw [ofValue_adopted rfl otherName.symm distinct keys, adopted_again targetDistinct declares]
    · have whole := @adopted_fields ⟨source, values⟩ distinct complete
      exact congrArg (fun slots => Except.ok (Record.mk source slots)) whole
    · intro field member
      rw [named?_fields_adopted targetDistinct (declares field member), Option.getD_some]
      exact keptThere field (declares field member)
  · intro index field fieldAt extra
    rw [adopted_of_field fieldAt]
    cases found : Value.named? (fields ⟨source, values⟩) field.name with
    | none => rfl
    | some slot => exact absurd (List.of_mem_zip (Value.entry_of_named? found)).1 extra

section Employees

def addressSchema : Schema :=
  .ofFields "Address" [.scalar "city" .string]

def personSchema : Schema :=
  .ofFields "Person"
    [.scalar "name" .string, .scalar "age" .nullableInt32, .composite "home" "Address"]

def employeeSchema : Schema :=
  .ofFields "Employee"
    [.scalar "office" .string, .composite "home" "Address", .scalar "name" .string,
      .scalar "age" .nullableInt32]

def addressCatalog : Catalog :=
  Catalog.empty.insert addressSchema

def homeValue : Value :=
  .record addressSchema [.varchar "Turin"]

def personValues : List Value :=
  [.varchar "Ada", .int 36, homeValue]

/-- A person becomes an employee without an office, and a person again. -/
theorem employed_and_back :
    ofValue addressCatalog employeeSchema (.record personSchema personValues) =
      .ok ⟨employeeSchema, [.null, homeValue, .varchar "Ada", .int 36]⟩ ∧
    ofValue addressCatalog personSchema
        (.record employeeSchema [.null, homeValue, .varchar "Ada", .int 36]) =
      .ok ⟨personSchema, personValues⟩ := by
  have employed : ofValue addressCatalog employeeSchema (.record personSchema personValues) =
      .ok ⟨employeeSchema, [.null, homeValue, .varchar "Ada", .int 36]⟩ := rfl
  have kinded : IsKinded ⟨personSchema, personValues⟩ :=
    .cons (.inr (by decide)) (.cons (.inr (by decide)) (.cons (.inr (by decide)) .nil))
  have referred (index : Nat) (field : SchemaField) (inner : Schema) (parts : List Value)
      (fieldAt : personSchema.fields[index]? = some field)
      (present : personValues[index]? = some (.record inner parts)) :
      field.reference = some inner.name := by
    match index with
    | 0 => cases present
    | 1 => cases present
    | 2 =>
      cases present
      cases fieldAt
      rfl
    | _ + 3 => cases present
  obtain ⟨moved, there, back, _⟩ := migrated_and_back addressCatalog personSchema employeeSchema
    personValues (by decide) (by decide) (by decide) (by decide) (by decide) (by decide) kinded
    referred
  cases employed.symm.trans there
  exact ⟨employed, back⟩

end Employees

end Record

end RowProjection
