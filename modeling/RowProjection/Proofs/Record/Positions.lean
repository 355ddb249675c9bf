import Mathlib.Data.List.Nodup
import RowProjection.Proofs.Record.Building
import RowProjection.Proofs.Schema.Fields
import RowProjection.Proofs.Value.Objects

/-! Values by position and by name. A row gives the fields of a schema their values in its own
order, a record or an object of another type under their names. Each name stands for one slot, and
what is stored in one slot does not depend on the others, so that the same values under the names of
the fields give what the row gives. -/

namespace RowProjection

variable {catalog : Catalog} {schema : Schema}

namespace RecordBuilder

variable {builder middle after : RecordBuilder} {first second : Nat × Value}

/-- Two slots are filled in either order. -/
theorem setConverted_swap (apart : first.1 ≠ second.1)
    (one : builder.setConverted catalog first.1 first.2 = .ok middle)
    (two : middle.setConverted catalog second.1 second.2 = .ok after) :
    ∃ other, builder.setConverted catalog second.1 second.2 = .ok other ∧
      other.setConverted catalog first.1 first.2 = .ok after := by
  obtain ⟨field, converted, fieldAt, stored, inside, rfl⟩ := setConverted_eq_ok one
  obtain ⟨otherField, other, otherAt, otherStored, otherInside, rfl⟩ := setConverted_eq_ok two
  rw [List.length_set] at otherInside
  refine ⟨{ builder with slots := builder.slots.set second.1 other }, ?_, ?_⟩
  · rw [setConverted_of_field catalog builder second.2 otherAt otherInside, otherStored]
    rfl
  · rw [setConverted_of_field catalog { builder with slots := builder.slots.set second.1 other }
      first.2 fieldAt (by rwa [List.length_set]), stored, List.set_comm _ _ apart]
    rfl

/-- Values for distinct slots are stored in any order. -/
theorem setAll_perm {parts others : List (Nat × Value)} (same : parts.Perm others)
    (distinct : (parts.map (·.1)).Nodup) (done : setAll catalog parts builder = .ok after) :
    setAll catalog others builder = .ok after := by
  induction same generalizing builder with
  | nil => exact done
  | cons part _ ih =>
    obtain ⟨next, set, done⟩ := Except.bind_eq_ok_iff.mp done
    exact Except.bind_eq_ok_iff.mpr ⟨next, set, ih (List.nodup_cons.mp distinct).2 done⟩
  | swap first second parts =>
    obtain ⟨middle, one, done⟩ := Except.bind_eq_ok_iff.mp done
    obtain ⟨next, two, done⟩ := Except.bind_eq_ok_iff.mp done
    have apart : second.1 ≠ first.1 := by
      intro same
      simp [same] at distinct
    obtain ⟨other, one, two⟩ := setConverted_swap apart one two
    exact Except.bind_eq_ok_iff.mpr ⟨other, one, Except.bind_eq_ok_iff.mpr ⟨next, two, done⟩⟩
  | trans front _ ihFront ihBack =>
    exact ihBack ((front.map _).nodup_iff.mp distinct) (ihFront distinct done)

end RecordBuilder

namespace Value

/-- What has an unknown name is placed nowhere. -/
theorem placedNamed_filter (fields : List (String × Value)) :
    placedNamed schema (fields.filter fun field => schema.hasField field.1) =
      placedNamed schema fields := by
  induction fields with
  | nil => rfl
  | cons field fields ih =>
    obtain ⟨name, value⟩ := field
    cases found : schema.field? name with
    | none =>
      rw [List.filter_cons_of_neg (by simp [Schema.hasField, found]), placedNamed_unknown found, ih]
    | some place =>
      rw [List.filter_cons_of_pos (by simp [Schema.hasField, found]), placedNamed_known found,
        placedNamed_known found, ih]

/-- The parts of a row under the names of its fields are placed where they stand in the row. -/
theorem placedNamed_zip (distinct : (schema.fields.map (·.name)).Nodup)
    {before fields : List SchemaField} (split : schema.fields = before ++ fields)
    (values : List Value) :
    placedNamed schema ((fields.map (·.name)).zip values) =
      placedFrom before.length (values.take fields.length) := by
  induction values generalizing before fields with
  | nil => simp [placedNamed, placedFrom]
  | cons value values ih =>
    cases fields with
    | nil => rfl
    | cons field fields =>
      have fieldAt : schema.fields[before.length]? = some field := by simp [split]
      have rest := @ih (before ++ [field]) fields (by simp [split])
      rw [List.length_append, List.length_singleton] at rest
      rw [List.map_cons, List.zip_cons_cons,
        placedNamed_known (Schema.field?_of_distinct distinct fieldAt), rest, List.length_cons,
        List.take_succ_cons, placedFrom_cons]

theorem distinct_placedFrom (start : Nat) (values : List Value) :
    ((placedFrom start values).map (·.1)).Nodup := by
  have places : (placedFrom start values).map (·.1) = (values.zipIdx start).map Prod.snd := by
    rw [placedFrom, List.map_map]
    rfl
  rw [places, List.zipIdx_map_snd]
  exact List.nodup_range' 1

/-- Of distinct names each stands for the one value under it. -/
theorem named?_eq_some_iff {fields : List (String × Value)} {name : String} {value : Value}
    (distinct : (fields.map (·.1)).Nodup) :
    named? fields name = some value ↔ (name, value) ∈ fields := by
  refine ⟨entry_of_named?, fun member => ?_⟩
  cases found : named? fields name with
  | none =>
    have missing := List.find?_eq_none.mp (Option.map_eq_none_iff.mp found) _ member
    simp at missing
  | some other =>
    cases List.inj_on_of_nodup_map distinct (entry_of_named? found) member rfl
    rfl

/-- A name is looked up among the known ones, if it is one of them. -/
theorem named?_filter {known : String → Bool} {name : String} (isKnown : known name = true)
    (fields : List (String × Value)) :
    named? (fields.filter fun field => known field.1) name = named? fields name := by
  rw [named?, named?, List.find?_filter]
  congr 2
  funext field
  by_cases here : field.1 = name
  · simp [here, isKnown]
  · simp [here]

/-- Named values are those of a row under the names of the first fields of a schema, in any order
and among others whose names the schema does not have. -/
def Spreads (schema : Schema) (values : List Value) (entries : List (String × Value)) : Prop :=
  (entries.filter fun entry => schema.hasField entry.1).Perm
    ((schema.fields.map (·.name)).zip values)

variable {source : Value} {typeName : String} {entries : List (String × Value)}
  {values : List Value}

/-- Under the name of a field stands what the row has at its position. -/
theorem Spreads.named?_eq (spreads : Spreads schema values entries)
    (distinct : (schema.fields.map (·.name)).Nodup) {index : Nat} {field : SchemaField}
    (fieldAt : schema.fields[index]? = some field) :
    named? entries field.name = values[index]? := by
  have nameAt : (schema.fields.map (·.name))[index]? = some field.name := by
    rw [List.getElem?_map, fieldAt, Option.map_some]
  have inside := (List.getElem?_eq_some_iff.mp nameAt).1
  have isKnown : schema.hasField field.name = true := by
    rw [Schema.hasField, Schema.field?_of_distinct distinct fieldAt, Option.isSome_some]
  have keys : (((schema.fields.map (·.name)).zip values).map Prod.fst).Nodup := by
    rw [List.zip_eq_zip_take_min, List.map_fst_zip (by simp)]
    exact distinct.sublist (List.take_sublist _ _)
  rw [← named?_filter isKnown]
  apply Option.ext
  intro value
  rw [named?_eq_some_iff ((spreads.map Prod.fst).nodup_iff.mpr keys), spreads.mem_iff,
    List.mem_iff_getElem?]
  constructor
  · rintro ⟨place, zipped⟩
    obtain ⟨named, present⟩ := List.getElem?_zip_eq_some.mp zipped
    rwa [(List.getElem?_inj inside distinct).mp (nameAt.trans named.symm)]
  · intro present
    exact ⟨index, List.getElem?_zip_eq_some.mpr ⟨nameAt, present⟩⟩

/-- The parts are placed in the slots that a row fills. -/
theorem Spreads.placed_perm (spreads : Spreads schema values entries)
    (distinct : (schema.fields.map (·.name)).Nodup) :
    (placed schema (.row values)).Perm (placedNamed schema entries) := by
  have named : placedNamed schema ((schema.fields.map (·.name)).zip values) =
      placed schema (.row values) :=
    placedNamed_zip distinct (List.nil_append _).symm values
  rw [← named, ← placedNamed_filter entries]
  exact (spreads.filterMap _).symm

/-- The type name of a record or an object, and its parts under their names. -/
def byName? : Value → Option (String × List (String × Value))
  | record own values => some (own.name, (own.fields.map (·.name)).zip values)
  | object typeName fields => some (typeName, fields)
  | _ => none

theorem fieldOf?_of_byName? (matched : source.byName? = some (typeName, entries)) (index : Nat)
    (name : String) : source.fieldOf? index name = named? entries name := by
  cases source with
  | record | object =>
    cases matched
    rfl
  | _ => cases matched

theorem toObject_of_byName? (matched : source.byName? = some (typeName, entries))
    (other : typeName ≠ schema.name) :
    source.toObject catalog schema = objectOf catalog (toObject catalog) source schema := by
  have solved := congrFun (congrFun (level_toObject catalog) source) schema
  cases source with
  | record own values => exact solved.symm
  | object own fields =>
    cases matched
    rw [← solved, level, if_neg other]
  | _ => cases matched

/-- The fields of an object depend on what is found for each of them only. -/
theorem objectFields_congr {part? other? : Nat → String → Option Part} {start : Nat}
    {fields : List SchemaField}
    (same : ∀ index field, fields[index]? = some field →
      part? (start + index) field.name = other? (start + index) field.name) :
    objectFields catalog part? start fields = objectFields catalog other? start fields := by
  induction fields generalizing start with
  | nil => rfl
  | cons field fields ih =>
    have behind := @ih (start + 1) fun index other otherAt => by
      rw [Nat.add_assoc, Nat.add_comm 1]
      exact same (index + 1) other otherAt
    have here := same 0 field rfl
    rw [Nat.add_zero] at here
    rw [objectFields, objectFields, here, behind]

theorem Spreads.toObject_eq (spreads : Spreads schema values entries)
    (distinct : (schema.fields.map (·.name)).Nodup)
    (matched : source.byName? = some (typeName, entries)) (other : typeName ≠ schema.name) :
    (row values).toObject catalog schema = source.toObject catalog schema := by
  have solved := congrFun (congrFun (level_toObject catalog) (row values)) schema
  rw [toObject_of_byName? matched other, ← solved, level, objectOf, objectOf, objectOfParts,
    objectOfParts]
  congr 1
  apply objectFields_congr
  intro index field fieldAt
  rw [Nat.zero_add, fieldOf?_of_byName? matched, spreads.named?_eq distinct fieldAt]
  rfl

end Value

namespace Record

variable {source : Value} {typeName : String} {entries : List (String × Value)}
  {values : List Value} {record : Record}

theorem ofValue_of_byName? (matched : source.byName? = some (typeName, entries))
    (other : typeName ≠ schema.name) : ofValue catalog schema source =
      (RecordBuilder.setAll catalog (Value.placedNamed schema entries) (.new schema)).map
        (·.build) := by
  rw [ofValue_eq_built]
  cases source with
  | record own values =>
    cases matched
    exact if_neg other
  | object own fields =>
    cases matched
    rfl
  | _ => cases matched

/-- Let the names of a schema be distinct, and let a record or an object of another type name have
the values of a row under the names of the first fields, in any order and among others that the
schema does not know. Then both give the same record, or neither gives one, and both give the same
object. -/
theorem same_by_position_and_name (catalog : Catalog) (schema : Schema)
    (distinct : (schema.fields.map (·.name)).Nodup) (values : List Value) (source : Value)
    (typeName : String) (entries : List (String × Value))
    (matched : source.byName? = some (typeName, entries)) (other : typeName ≠ schema.name)
    (spreads : Value.Spreads schema values entries) :
    (∀ record, ofValue catalog schema (.row values) = .ok record ↔
      ofValue catalog schema source = .ok record) ∧
    (Value.row values).toObject catalog schema = source.toObject catalog schema := by
  have placed := spreads.placed_perm distinct
  have slots : ((Value.placed schema (.row values)).map (·.1)).Nodup :=
    Value.distinct_placedFrom 0 _
  have slotsBack : ((Value.placedNamed schema entries).map (·.1)).Nodup :=
    (placed.map _).nodup_iff.mp slots
  refine ⟨fun record => ?_, spreads.toObject_eq distinct matched other⟩
  rw [ofValue_of_byName? matched other, ofValue_eq_built, built, Except.map_eq_ok_iff,
    Except.map_eq_ok_iff]
  constructor
  · rintro ⟨after, done, rfl⟩
    exact ⟨after, RecordBuilder.setAll_perm placed slots done, rfl⟩
  · rintro ⟨after, done, rfl⟩
    exact ⟨after, RecordBuilder.setAll_perm placed.symm slotsBack done, rfl⟩

section Invoices

def senderSchema : Schema :=
  .ofFields "Sender" [.scalar "name" .string]

def invoiceSchema : Schema :=
  .ofFields "Invoice"
    [.composite "sender" "Sender", .scalar "pages" .int32, .scalar "subject" .string]

def invoiceCatalog : Catalog :=
  (Catalog.empty.insert senderSchema).insert invoiceSchema

/-- An invoice without a subject. -/
def invoiceValues : List Value :=
  [.row [.varchar "Ada"], .varchar "2"]

/-- The same invoice with its parts in another order, and with one that invoices do not have. -/
def scannedEntries : List (String × Value) :=
  [("pages", .varchar "2"), ("colour", .boolean true), ("sender", .row [.varchar "Ada"])]

theorem invoice_by_position_and_name : ∃ invoice,
    ofValue invoiceCatalog invoiceSchema (.row invoiceValues) = .ok invoice ∧
    ofValue invoiceCatalog invoiceSchema (.object "Scan" scannedEntries) = .ok invoice ∧
    (Value.row invoiceValues).toObject invoiceCatalog invoiceSchema =
      (Value.object "Scan" scannedEntries).toObject invoiceCatalog invoiceSchema := by
  have spreads : Value.Spreads invoiceSchema invoiceValues scannedEntries := .swap _ _ _
  obtain ⟨records, objects⟩ := same_by_position_and_name invoiceCatalog invoiceSchema (by decide)
    invoiceValues (.object "Scan" scannedEntries) "Scan" scannedEntries rfl (by decide) spreads
  obtain ⟨invoice, filed⟩ :
      ∃ invoice, ofValue invoiceCatalog invoiceSchema (.row invoiceValues) = .ok invoice := ⟨_, rfl⟩
  exact ⟨invoice, filed, (records invoice).mp filed, objects⟩

end Invoices

end Record

end RowProjection
