import RowProjection.Proofs.Outcome
import RowProjection.Proofs.Value.Components
import RowProjection.Record.Conversion

/-! Conversion carried out on a builder. The parts of a composite value are converted for their
slots one after another, each slot being checked; this is the conversion again, so that no check
fails, and each slot ends with the last part that is placed there. -/

namespace RowProjection

variable {catalog : Catalog} {schema : Schema} {value : Value}

namespace RecordBuilder

/-- Converts a value for a slot and stores it there. The slot must belong to the schema. -/
def setConverted (catalog : Catalog) (builder : RecordBuilder) (index : Nat) (value : Value) :
    Except Failure RecordBuilder :=
  match builder.schema.fields[index]? with
  | some field => (value.storedIn catalog field.kind field.reference).bind (builder.set index)
  | none => .error (.breach .slotOutOfRange)

/-- Converts values for slots, one after another. -/
def setAll (catalog : Catalog) : List (Nat × Value) → RecordBuilder → Except Failure RecordBuilder
  | [], builder => .ok builder
  | (index, value) :: rest, builder => do
    let next ← builder.setConverted catalog index value
    setAll catalog rest next

theorem setConverted_of_field (catalog : Catalog) (builder : RecordBuilder) (value : Value)
    {index : Nat} {field : SchemaField} (fieldAt : builder.schema.fields[index]? = some field)
    (inside : index < builder.slots.length) :
    builder.setConverted catalog index value =
      (value.storedIn catalog field.kind field.reference).map fun converted =>
        { builder with slots := builder.slots.set index converted } := by
  simp only [setConverted, fieldAt]
  cases value.storedIn catalog field.kind field.reference with
  | error failure => rfl
  | ok converted => exact if_pos inside

theorem setConverted_eq_ok {builder next : RecordBuilder} {index : Nat}
    (success : builder.setConverted catalog index value = .ok next) :
    ∃ field converted, builder.schema.fields[index]? = some field ∧
      value.storedIn catalog field.kind field.reference = .ok converted ∧
      index < builder.slots.length ∧
      next = { builder with slots := builder.slots.set index converted } := by
  rw [setConverted] at success
  split at success
  · next field fieldAt =>
    obtain ⟨converted, stored, success⟩ := Except.bind_eq_ok_iff.mp success
    rw [set] at success
    split at success
    · next inside =>
      exact ⟨field, converted, fieldAt, stored, inside, (Except.ok.inj success).symm⟩
    · cases success
  · cases success

end RecordBuilder

/-- The last part placed at a slot. -/
def lastPlaced? (parts : List (Nat × Value)) (index : Nat) : Option Value :=
  (parts.reverse.find? (·.1 = index)).map (·.2)

/-- The first part counts where no later one is placed at the slot. -/
theorem lastPlaced?_cons (part : Nat × Value) (parts : List (Nat × Value)) (index : Nat)
    (default : Value) :
    (lastPlaced? (part :: parts) index).getD default =
      (lastPlaced? parts index).getD (if part.1 = index then part.2 else default) := by
  rw [lastPlaced?, lastPlaced?, List.reverse_cons, List.find?_append]
  cases parts.reverse.find? (·.1 = index) with
  | some later => rfl
  | none =>
    rw [Option.none_or]
    by_cases here : part.1 = index
    · simp [here]
    · simp [here]

namespace Value

/-- Named values at the slots of the first fields of their names. -/
def placedNamed (schema : Schema) (fields : List (String × Value)) : List (Nat × Value) :=
  fields.filterMap fun field => (schema.field? field.1).map fun found => (found.2, field.2)

theorem placedNamed_known {name : String} {field : SchemaField} {index : Nat}
    (found : schema.field? name = some (field, index)) (value : Value)
    (fields : List (String × Value)) :
    placedNamed schema ((name, value) :: fields) = (index, value) :: placedNamed schema fields :=
  List.filterMap_cons_some (by rw [found, Option.map_some])

theorem placedNamed_unknown {name : String} (missing : schema.field? name = none) (value : Value)
    (fields : List (String × Value)) :
    placedNamed schema ((name, value) :: fields) = placedNamed schema fields :=
  List.filterMap_cons_none (by rw [missing, Option.map_none])

/-- Values at the slots from a position on. -/
def placedFrom (start : Nat) (values : List Value) : List (Nat × Value) :=
  (values.zipIdx start).map fun entry => (entry.2, entry.1)

theorem placedFrom_cons (start : Nat) (value : Value) (values : List Value) :
    placedFrom start (value :: values) = (start, value) :: placedFrom (start + 1) values :=
  rfl

/-- The parts of a value at their slots: those of a row by position, as far as there are fields,
and those of a record or an object by name. -/
def placed (schema : Schema) : Value → List (Nat × Value)
  | row values => placedFrom 0 (values.take schema.fields.length)
  | record own values => placedNamed schema ((own.fields.map (·.name)).zip values)
  | object _ fields => placedNamed schema fields
  | _ => []

/-- The part of a value that a slot is filled with, null where there is none. -/
def partAt (schema : Schema) (value : Value) (index : Nat) : Value :=
  (lastPlaced? (value.placed schema) index).getD .null

/-- A record of the same name is ready: it is taken over as it is. -/
def IsReadyFor (schema : Schema) : Value → Prop
  | record own _ => own.name = schema.name
  | _ => False

theorem mem_of_placedNamed {fields : List (String × Value)} {entry : Nat × Value}
    (member : entry ∈ placedNamed schema fields) : entry.2 ∈ fields.map (·.2) := by
  obtain ⟨field, present, found⟩ := List.mem_filterMap.mp member
  obtain ⟨_, _, rfl⟩ := Option.map_eq_some_iff.mp found
  exact List.mem_map_of_mem present

/-- What is placed is a part of the value. -/
theorem mem_of_placed {entry : Nat × Value} (member : entry ∈ value.placed schema) :
    entry.2 ∈ value.components := by
  cases value with
  | row values =>
    obtain ⟨⟨part, index⟩, present, rfl⟩ := List.mem_map.mp member
    exact List.mem_of_mem_take (List.fst_mem_of_mem_zipIdx present)
  | record own values => exact mem_of_mem_zip (mem_of_placedNamed member)
  | object typeName fields => exact mem_of_placedNamed member
  | _ => cases member

theorem partAt_cases (schema : Schema) (value : Value) (index : Nat) :
    value.partAt schema index = .null ∨ value.partAt schema index ∈ value.components := by
  rw [partAt, lastPlaced?]
  cases found : (value.placed schema).reverse.find? (·.1 = index) with
  | none => exact .inl rfl
  | some entry =>
    exact .inr (mem_of_placed (List.mem_reverse.mp (List.mem_of_find?_eq_some found)))

end Value

namespace RecordBuilder

/-- The schema and the number of slots stay. -/
theorem same_shape_of_setAll {parts : List (Nat × Value)} {builder after : RecordBuilder}
    (done : setAll catalog parts builder = .ok after) :
    after.schema = builder.schema ∧ after.slots.length = builder.slots.length := by
  induction parts generalizing builder with
  | nil =>
    cases done
    exact ⟨rfl, rfl⟩
  | cons part parts ih =>
    obtain ⟨next, set, done⟩ := Except.bind_eq_ok_iff.mp done
    obtain ⟨_, _, _, _, _, rfl⟩ := setConverted_eq_ok set
    obtain ⟨sameSchema, sameLength⟩ := ih done
    exact ⟨sameSchema, sameLength.trans (List.length_set ..)⟩

/-- Each slot ends with the last part placed there, converted for its field; a slot without a part
keeps what it had. -/
theorem exists_slot_of_setAll {parts : List (Nat × Value)} {builder after : RecordBuilder}
    {index : Nat} {field : SchemaField} {slot : Value}
    (done : setAll catalog parts builder = .ok after)
    (fieldAt : builder.schema.fields[index]? = some field)
    (before : builder.slots[index]? = some slot)
    (stored : value.storedIn catalog field.kind field.reference = .ok slot) :
    ∃ slot, after.slots[index]? = some slot ∧
      ((lastPlaced? parts index).getD value).storedIn catalog field.kind field.reference =
        .ok slot := by
  induction parts generalizing builder value slot with
  | nil =>
    cases done
    exact ⟨slot, before, stored⟩
  | cons part parts ih =>
    obtain ⟨next, set, done⟩ := Except.bind_eq_ok_iff.mp done
    obtain ⟨own, converted, ownAt, ownStored, inside, rfl⟩ := setConverted_eq_ok set
    rw [lastPlaced?_cons]
    by_cases here : part.1 = index
    · rw [if_pos here]
      subst here
      cases ownAt.symm.trans fieldAt
      exact ih done fieldAt (List.getElem?_set_self inside) ownStored
    · rw [if_neg here]
      exact ih done fieldAt ((List.getElem?_set_ne here).trans before) stored

end RecordBuilder

namespace Record

/-- The conversion of a value as a builder carries it out. -/
def built (catalog : Catalog) (schema : Schema) (value : Value) : Except Failure Record :=
  match value with
  | .record own values =>
    if own.name = schema.name then .ok ⟨own, values⟩
    else (RecordBuilder.setAll catalog (value.placed schema) (.new schema)).map (·.build)
  | .row _ | .object _ _ =>
    (RecordBuilder.setAll catalog (value.placed schema) (.new schema)).map (·.build)
  | value => .error (.error (.conversion value.kindName schema.name))

/-- A row fills the slots in their order. -/
theorem setAll_placedFrom {done : List Value} {before fields : List SchemaField}
    {values : List Value} (split : schema.fields = before ++ fields)
    (filled : done.length = before.length) :
    RecordBuilder.setAll catalog (Value.placedFrom done.length (values.take fields.length))
        ⟨schema, done ++ fields.map fun _ => .null⟩ =
      (ofRow catalog fields values).map fun slots => ⟨schema, done ++ slots⟩ := by
  induction values generalizing done before fields with
  | nil =>
    rw [List.take_nil]
    rfl
  | cons value values ih =>
    cases fields with
    | nil => rfl
    | cons field fields =>
      have fieldAt : schema.fields[done.length]? = some field := by
        rw [split, filled, List.getElem?_append_right (Nat.le_refl _), Nat.sub_self]
        rfl
      have step := RecordBuilder.setConverted_of_field catalog
        ⟨schema, done ++ (field :: fields).map fun _ => .null⟩ value fieldAt (by simp)
      rw [List.length_cons, List.take_succ_cons, Value.placedFrom_cons, RecordBuilder.setAll, step,
        ofRow]
      change _ = Except.map _ (value.storedIn catalog field.kind field.reference >>= _)
      cases value.storedIn catalog field.kind field.reference with
      | error failure => rfl
      | ok head =>
        have next : (done ++ (field :: fields).map fun _ => Value.null).set done.length head =
            done ++ [head] ++ fields.map fun _ => .null := by
          simp
        have rest := @ih (done ++ [head]) (before ++ [field]) fields (by simp [split])
          (by simp [filled])
        rw [List.length_append, List.length_singleton] at rest
        change RecordBuilder.setAll catalog _ ⟨schema, List.set _ _ _⟩ = _
        rw [next, rest]
        cases ofRow catalog fields values with
        | error failure => rfl
        | ok tail => simp [Except.map, Bind.bind, Except.bind, Pure.pure, Except.pure]

/-- Named values fill the slots of the fields of their names. -/
theorem setAll_placedNamed {fields : List (String × Value)} {slots : List Value}
    (complete : slots.length = schema.fields.length) :
    RecordBuilder.setAll catalog (Value.placedNamed schema fields) ⟨schema, slots⟩ =
      (ofObjectFields catalog schema fields slots).map fun slots => ⟨schema, slots⟩ := by
  induction fields generalizing slots with
  | nil => rfl
  | cons entry fields ih =>
    obtain ⟨name, value⟩ := entry
    rw [ofObjectFields, fillSlot]
    cases found : schema.field? name with
    | none =>
      rw [Value.placedNamed_unknown found]
      exact ih complete
    | some place =>
      obtain ⟨field, index⟩ := place
      have fieldAt := Schema.getElem?_of_field? found
      have inside : index < slots.length := by
        obtain ⟨below, _⟩ := List.getElem?_eq_some_iff.mp fieldAt
        omega
      have step :=
        RecordBuilder.setConverted_of_field catalog ⟨schema, slots⟩ value fieldAt inside
      rw [Value.placedNamed_known found, RecordBuilder.setAll, step]
      change _ = Except.map _
        ((value.storedIn catalog field.kind field.reference).map (slots.set index) >>= _)
      cases value.storedIn catalog field.kind field.reference with
      | error failure => rfl
      | ok converted => exact ih ((List.length_set ..).trans complete)

theorem ofRecordFields_eq (names : List String) (values slots : List Value) :
    ofRecordFields catalog schema names values slots =
      ofObjectFields catalog schema (names.zip values) slots := by
  induction values generalizing names slots with
  | nil => rw [List.zip_nil_right, ofRecordFields, ofObjectFields]
  | cons value values ih =>
    cases names with
    | nil => rfl
    | cons name names =>
      rw [ofRecordFields, List.zip_cons_cons, ofObjectFields]
      exact bind_congr fun slots => ih names slots

/-- Records are built slot by slot, and no slot is missed. -/
theorem ofValue_eq_built (catalog : Catalog) (schema : Schema) (value : Value) :
    ofValue catalog schema value = built catalog schema value := by
  have build {parts : List (Nat × Value)} {slots : Except Failure (List Value)}
      (same : RecordBuilder.setAll catalog parts (.new schema) =
        slots.map fun slots => ⟨schema, slots⟩) :
      slots.map (fun slots => ⟨schema, slots⟩) =
        (RecordBuilder.setAll catalog parts (.new schema)).map (·.build) := by
    rw [same]
    cases slots <;> rfl
  cases value with
  | record own values =>
    rw [ofValue, ofRecordFields_eq]
    exact ite_congr rfl (fun _ => rfl) fun _ => build (setAll_placedNamed (List.length_map _))
  | row values =>
    have filled : RecordBuilder.setAll catalog (Value.placed schema (.row values)) (.new schema) =
        (ofRow catalog schema.fields values).map fun slots => ⟨schema, slots⟩ :=
      @setAll_placedFrom catalog schema [] [] schema.fields values rfl rfl
    exact build filled
  | object typeName fields => exact build (setAll_placedNamed (List.length_map _))
  | _ => rfl

/-- Unless the value is a ready record, the record is one of the schema itself, and each slot holds
the part of the value for it, converted for the field. -/
theorem slots_of_ofValue {record : Record} (notReady : ¬ value.IsReadyFor schema)
    (made : ofValue catalog schema value = .ok record) :
    record.schema = schema ∧ record.values.length = schema.fields.length ∧
      ∀ index field, schema.fields[index]? = some field →
        ∃ slot, record.values[index]? = some slot ∧
          (value.partAt schema index).storedIn catalog field.kind field.reference = .ok slot := by
  rw [ofValue_eq_built] at made
  have filled (built : (RecordBuilder.setAll catalog (value.placed schema) (.new schema)).map
      (·.build) = .ok record) :
      record.schema = schema ∧ record.values.length = schema.fields.length ∧
        ∀ index field, schema.fields[index]? = some field →
          ∃ slot, record.values[index]? = some slot ∧
            (value.partAt schema index).storedIn catalog field.kind field.reference =
              .ok slot := by
    obtain ⟨after, done, rfl⟩ := Except.map_eq_ok_iff.mp built
    obtain ⟨sameSchema, sameLength⟩ := RecordBuilder.same_shape_of_setAll done
    refine ⟨sameSchema, sameLength.trans (List.length_map _), fun index field fieldAt => ?_⟩
    have empty : (RecordBuilder.new schema).slots[index]? = some .null := by
      rw [RecordBuilder.new, emptySlots, List.getElem?_map, fieldAt, Option.map_some]
    exact RecordBuilder.exists_slot_of_setAll done fieldAt empty rfl
  cases value with
  | record own values =>
    have otherName : own.name ≠ schema.name := notReady
    rw [built, if_neg otherName] at made
    exact filled made
  | row values => exact filled made
  | object typeName fields => exact filled made
  | _ => cases made

end Record

end RowProjection
