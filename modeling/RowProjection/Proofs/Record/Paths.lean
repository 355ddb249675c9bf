import RowProjection.Proofs.Record.NativeView
import RowProjection.Schema.FieldPath

namespace RowProjection

variable {catalog : Catalog} {schema : Schema} {text name : String} {owner : TypeKind}
  {names rest : List String} {segments : List PathSegment} {type : DataType} {values : List Value}

theorem Value.eq_null_of_isNull {value : Value} (null : value.isNull = true) : value = .null := by
  cases value with
  | null => rfl
  | _ => cases null

namespace FieldPath

/-- The field that names lead to from a schema on, through composite fields before the last. -/
def lastField? (catalog : Catalog) (schema : Schema) : List String → Option SchemaField
  | [] => none
  | [name] => (schema.field? name).map (·.1)
  | name :: next :: rest => do
    let (field, _) ← schema.field? name
    let schema ← field.reference.bind catalog.find?
    lastField? catalog schema (next :: rest)

/-- A name is followed through a composite field to the schema it refers to. It is followed to any
other field if that is the end. -/
theorem follow_cons_eq_ok_iff :
    follow catalog text owner schema (name :: rest) = .ok (segments, type) ↔
      name.isEmpty = false ∧ ∃ field index, schema.field? name = some (field, index) ∧
        ((∃ reference inner more, field.kind = .compact ∧ field.reference = some reference ∧
            catalog.resolve reference = .ok inner ∧
            follow catalog text owner inner rest = .ok (more, type) ∧
            segments = ⟨name, index⟩ :: more) ∨
          (field.kind ≠ .compact ∧ rest = [] ∧
            field.kind.dataType? field.reference owner = some type ∧
            segments = [⟨name, index⟩])) := by
  constructor
  · intro followed
    rw [follow] at followed
    split at followed
    · cases followed
    · next nonempty =>
      refine ⟨Bool.eq_false_iff.mpr nonempty, ?_⟩
      split at followed
      · cases followed
      · next field index found =>
        refine ⟨field, index, found, ?_⟩
        split at followed
        · next reference composite refers =>
          obtain ⟨inner, resolved, followed⟩ := Except.bind_eq_ok_iff.mp followed
          obtain ⟨⟨more, last⟩, further, followed⟩ := Except.bind_eq_ok_iff.mp followed
          cases followed
          exact .inl ⟨reference, inner, more, composite, refers, resolved, further, rfl⟩
        · next leaf =>
          split at followed
          · cases followed
          · next found =>
            split at followed
            · next last =>
              cases followed
              refine .inr ⟨fun composite => ?_, List.isEmpty_iff.mp last, found, rfl⟩
              rw [composite] at found leaf
              obtain ⟨reference, refers, _⟩ := Option.map_eq_some_iff.mp found
              exact leaf reference rfl refers
            · cases followed
  · rintro ⟨nonempty, field, index, found, ⟨reference, inner, more, composite, refers, resolved,
      further, rfl⟩ | ⟨scalar, rfl, ends, rfl⟩⟩
    · simp only [follow, nonempty, found, composite, refers, resolved]
      exact Except.bind_eq_ok_iff.mpr ⟨inner, rfl,
        Except.bind_eq_ok_iff.mpr ⟨_, further, rfl⟩⟩
    · rw [follow, if_neg (by simp [nonempty]), found]
      dsimp only
      split
      · next composite _ => exact absurd composite scalar
      · rw [ends]
        rfl

/-- A name that is followed is that of a field; and what stands behind it is followed from the
schema that the field refers to. -/
theorem follow_cons (followed : follow catalog text owner schema (name :: rest) =
    .ok (segments, type)) :
    ∃ field index, schema.field? name = some (field, index) ∧
      (rest = [] ∧ segments = [⟨name, index⟩] ∨
        ∃ reference inner more, rest ≠ [] ∧ field.kind = .compact ∧
          field.reference = some reference ∧ catalog.find? reference = some inner ∧
          follow catalog text owner inner rest = .ok (more, type) ∧
          segments = ⟨name, index⟩ :: more) := by
  obtain ⟨_, field, index, found, ⟨reference, inner, more, composite, refers, resolved, further,
    rfl⟩ | ⟨_, rfl, _, rfl⟩⟩ := follow_cons_eq_ok_iff.mp followed
  · refine ⟨field, index, found, ?_⟩
    cases rest with
    | nil =>
      cases further
      exact .inl ⟨rfl, rfl⟩
    | cons next rest =>
      exact .inr ⟨reference, inner, more, List.cons_ne_nil _ _, composite, refers,
        Catalog.find?_of_resolve resolved, further, rfl⟩
  · exact ⟨field, index, found, .inl ⟨rfl, rfl⟩⟩

theorem lastField?_cons {field : SchemaField} {index : Nat} {reference : String} {inner : Schema}
    {rest : List String} (found : schema.field? name = some (field, index))
    (refers : field.reference = some reference) (declared : catalog.find? reference = some inner)
    (further : rest ≠ []) :
    lastField? catalog schema (name :: rest) = lastField? catalog inner rest := by
  cases rest with
  | nil => exact absurd rfl further
  | cons next rest => simp [lastField?, found, refers, declared]

theorem exists_lastField? (followed : follow catalog text owner schema names = .ok (segments, type))
    (nonempty : names ≠ []) : ∃ field, lastField? catalog schema names = some field := by
  induction names generalizing schema segments with
  | nil => exact absurd rfl nonempty
  | cons name rest ih =>
    obtain ⟨field, index, found, ⟨rfl, _⟩ | ⟨reference, inner, more, further, _, refers, declared,
      deeper, _⟩⟩ := follow_cons followed
    · exact ⟨field, by rw [lastField?, found, Option.map_some]⟩
    · obtain ⟨last, reached⟩ := ih deeper further
      exact ⟨last, by rw [lastField?_cons found refers declared further, reached]⟩

theorem walk_null (segments : List PathSegment) : walk text segments .null = .ok .null := by
  cases segments <;> rfl

theorem walk_append (before after : List PathSegment) (value : Value) :
    walk text (before ++ after) value = walk text before value >>= walk text after := by
  induction before generalizing value with
  | nil => rfl
  | cons segment before ih =>
    cases value with
    | null => exact (walk_null after).symm
    | record | object | row =>
      rw [List.cons_append, walk, walk]
      exact ih _
    | _ => rfl

/-- Composites made by a conversion of rows: at the name of a field they show the value of the row
at its position, converted for that field. Only rows are converted. -/
structure ShowsFields (catalog : Catalog) (owner : TypeKind)
    (convert : Value → Schema → Except Failure Value) : Prop where
  field : ∀ (schema : Schema) (values : List Value) (made : Value) (name : String)
    (field : SchemaField) (index : Nat), (Value.row values).Throughout Value.IsUnbound →
    convert (.row values) schema = .ok made → schema.field? name = some (field, index) →
    ∃ slot, convertField catalog owner field.kind field.reference (Value.nth values index)
        (convert (Value.nth values index)) = .ok slot ∧
      ∀ text rest, walk text (⟨name, index⟩ :: rest) made = walk text rest slot
  row : ∀ (value : Value) (schema : Schema) (made : Value), value.Throughout Value.IsUnbound →
    value.isNull = false → convert value schema = .ok made → ∃ values, value = .row values

theorem unbound_nth (unbound : (Value.row values).Throughout Value.IsUnbound) (index : Nat) :
    (Value.nth values index).Throughout Value.IsUnbound := by
  rw [Value.nth, List.getD_eq_getElem?_getD]
  cases present : values[index]? with
  | none => exact Value.unbound_scalar rfl trivial
  | some value => exact Value.unbound_row_iff.mp unbound value (List.mem_of_getElem? present)

/-- What is read off a converted row is what is read off the row, converted for the last field. -/
theorem ShowsFields.walk {convert : Value → Schema → Except Failure Value} {owner kind : TypeKind}
    {made : Value} (shows : ShowsFields catalog owner convert)
    (followed : follow catalog text kind schema names = .ok (segments, type))
    (nonempty : names ≠ []) (unbound : (Value.row values).Throughout Value.IsUnbound)
    (success : convert (.row values) schema = .ok made) :
    ∃ field inner stored, lastField? catalog schema names = some field ∧
      FieldPath.walk text segments (.row values) = .ok inner ∧
      convertField catalog owner field.kind field.reference inner (convert inner) = .ok stored ∧
      FieldPath.walk text segments made = .ok stored := by
  induction names generalizing schema segments values made with
  | nil => exact absurd rfl nonempty
  | cons name rest ih =>
    obtain ⟨field, index, found, ⟨rfl, rfl⟩ | ⟨reference, inner, more, further, composite, refers,
      declared, deeper, rfl⟩⟩ := follow_cons followed
    · obtain ⟨slot, converted, shown⟩ := shows.field _ _ _ _ _ _ unbound success found
      refine ⟨field, Value.nth values index, slot, ?_, rfl, converted, shown text []⟩
      rw [lastField?, found, Option.map_some]
    · obtain ⟨slot, converted, shown⟩ := shows.field _ _ _ _ _ _ unbound success found
      rw [lastField?_cons found refers declared further, shown, FieldPath.walk]
      by_cases null : (Value.nth values index).isNull = true
      · -- The row has nothing there, and the composite shows null from here on.
        have absent := Value.eq_null_of_isNull null
        rw [absent] at converted ⊢
        cases converted
        obtain ⟨last, reached⟩ := exists_lastField? deeper further
        exact ⟨last, .null, .null, reached, walk_null more, rfl, walk_null more⟩
      · have present := Bool.eq_false_iff.mpr null
        rw [convertField_nested present composite refers declared] at converted
        have partUnbound := unbound_nth unbound index
        obtain ⟨parts, same⟩ := shows.row _ _ _ partUnbound present converted
        rw [same] at converted partUnbound ⊢
        exact ih deeper further partUnbound converted

end FieldPath

namespace Record

theorem exists_slot_of_ofRow {fields : List SchemaField} {slots : List Value} {field : SchemaField}
    {index : Nat} (filled : ofRow catalog fields values = .ok slots)
    (fieldAt : fields[index]? = some field) :
    ∃ slot, slots[index]? = some slot ∧
      (Value.nth values index).storedIn catalog field.kind field.reference = .ok slot := by
  induction values generalizing fields slots index with
  | nil =>
    cases filled
    exact ⟨.null, by rw [List.getElem?_map, fieldAt, Option.map_some], rfl⟩
  | cons value values ih =>
    cases fields with
    | nil => cases fieldAt
    | cons head fields =>
      obtain ⟨slot, others, converted, further, rfl⟩ := Except.both_eq_ok_iff.mp filled
      cases index with
      | zero =>
        cases fieldAt
        exact ⟨slot, rfl, converted⟩
      | succ index => exact ih further fieldAt

/-- The slot of a field holds the value at its position in the row, and is found by its name. -/
theorem exists_slot_of_ofValue {record : Record} {field : SchemaField} {index : Nat}
    (made : ofValue catalog schema (.row values) = .ok record)
    (found : schema.field? name = some (field, index)) :
    ∃ slots slot, record = ⟨schema, slots⟩ ∧ slots[index]? = some slot ∧
      (Value.nth values index).storedIn catalog field.kind field.reference = .ok slot := by
  obtain ⟨slots, filled, rfl⟩ := Except.map_eq_ok_iff.mp made
  obtain ⟨slot, present, converted⟩ :=
    exists_slot_of_ofRow filled (Schema.getElem?_of_field? found)
  exact ⟨slots, slot, rfl, present, converted⟩

theorem named?_of_field? {slots : List Value} {field : SchemaField} {index : Nat}
    (found : schema.field? name = some (field, index)) :
    named? ⟨schema, slots⟩ name = slots[index]? := by
  rw [named?, found]
  rfl

theorem showsFields_converting :
    FieldPath.ShowsFields catalog .compact (converting catalog) where
  field schema values made name field index _ success found := by
    obtain ⟨record, ofRow, rfl⟩ := Except.map_eq_ok_iff.mp success
    obtain ⟨slots, slot, rfl, present, converted⟩ := exists_slot_of_ofValue ofRow found
    refine ⟨slot, converted, fun text rest => ?_⟩
    rw [toValue, FieldPath.walk, named?_of_field? found, present, Option.getD_some]
  row value schema made unbound present success := by
    cases value with
    | row values => exact ⟨values, rfl⟩
    | record | object => exact unbound.self.elim
    | _ => cases success

end Record

namespace Value

/-- In fields that stand under the names of a schema, the first field of a name has its position. -/
theorem named?_zip {fields : List SchemaField} {slots : List Value} {start index : Nat}
    {field : SchemaField} {slot : Value}
    (found : (fields.zipIdx start).find? (·.1.name = name) = some (field, index))
    (present : slots[index - start]? = some slot) :
    named? ((fields.map (·.name)).zip slots) name = some slot := by
  induction fields generalizing start slots with
  | nil => cases found
  | cons head fields ih =>
    rw [List.zipIdx_cons] at found
    by_cases same : head.name = name
    · rw [List.find?_cons_of_pos (by simpa using same)] at found
      cases found
      rw [Nat.sub_self] at present
      cases slots with
      | nil => cases present
      | cons first slots =>
        cases present
        simp [named?, same]
    · rw [List.find?_cons_of_neg (by simpa using same)] at found
      have behind : start + 1 ≤ index :=
        List.le_snd_of_mem_zipIdx (List.mem_of_find?_eq_some found)
      cases slots with
      | nil => cases present
      | cons first slots =>
        have further : slots[index - (start + 1)]? = some slot := by
          rw [← present, show index - start = index - (start + 1) + 1 by omega,
            List.getElem?_cons_succ]
        rw [← ih found further]
        simp [named?, same]

theorem showsFields_toObject :
    FieldPath.ShowsFields catalog .native (toObject catalog) where
  field schema values made name field index unbound success found := by
    rw [toObject_eq_map_converting unbound rfl] at success
    obtain ⟨_, converted, rfl⟩ := Except.map_eq_ok_iff.mp success
    obtain ⟨record, ofRow, rfl⟩ := Except.map_eq_ok_iff.mp converted
    obtain ⟨slots, slot, rfl, present, stored⟩ := Record.exists_slot_of_ofValue ofRow found
    have partUnbound := FieldPath.unbound_nth unbound index
    have native : (nth values index).nativeIn catalog field.kind field.reference =
        .ok slot.asObject := by
      rw [nativeIn_of_nested (toObject_eq_map_converting partUnbound), stored]
      rfl
    refine ⟨slot.asObject, native, fun text rest => ?_⟩
    have shown : (slots.map asObject)[index - 0]? = some slot.asObject := by
      rw [Nat.sub_zero, List.getElem?_map, present, Option.map_some]
    rw [Record.toValue, asObject, asObjects_eq_map, FieldPath.walk, named?_zip found shown,
      Option.getD_some]
  row value schema made unbound present success := by
    cases value with
    | row values => exact ⟨values, rfl⟩
    | record | object => exact unbound.self.elim
    | null => cases present
    | _ => cases success

end Value

namespace FieldPath

theorem names_ne_nil : FieldPath.names text ≠ [] := by
  rw [FieldPath.names, List.splitOn_eq_splitOnP, Ne, List.map_eq_nil_iff]
  exact List.splitOnP_ne_nil _ _

/-- A path compiles if its names are followed from the schema of the root. None of them is empty, so
the path is not either. -/
theorem compile_eq_ok_iff {root : CustomType} {path : FieldPath} :
    compile catalog root text = .ok path ↔
      ∃ schema, catalog.resolve root.name = .ok schema ∧
        follow catalog text root.kind schema (FieldPath.names text) =
          .ok (path.segments, path.type) ∧
        path.text = text := by
  rw [compile]
  split
  · next empty =>
    have unnamed : FieldPath.names text = [""] := by
      rw [String.isEmpty_iff.mp empty]
      rfl
    constructor
    · nofun
    · rintro ⟨schema, _, followed, _⟩
      rw [unnamed] at followed
      cases followed
  · simp only [Except.bind_eq_ok_iff]
    constructor
    · rintro ⟨schema, resolved, ⟨segments, type⟩, followed, success⟩
      cases success
      exact ⟨schema, resolved, followed, rfl⟩
    · rintro ⟨schema, resolved, followed, rfl⟩
      exact ⟨schema, resolved, _, followed, rfl⟩

/-- A path that compiles from a root type is followed from the schema declared for it. -/
theorem compile_eq_ok {root : CustomType} {path : FieldPath}
    (declared : catalog.find? root.name = some schema)
    (compiled : compile catalog root text = .ok path) :
    path.text = text ∧ follow catalog text root.kind schema (FieldPath.names text) =
      .ok (path.segments, path.type) := by
  obtain ⟨resolved, success, followed, same⟩ := compile_eq_ok_iff.mp compiled
  cases declared.symm.trans (Catalog.find?_of_resolve success)
  exact ⟨same, followed⟩

/-- A path that compiles reads off the record made of a row, and off the object made of it, what it
reads off the row itself, converted for the field that the path ends at. None of the three readings
fails; and where the row has null on the way, or nothing at all, all of them are null. -/
theorem extract_converted {root : CustomType} {path : FieldPath} {record : Record}
    (compiled : compile catalog root text = .ok path)
    (declared : catalog.find? root.name = some schema)
    (unbound : (Value.row values).Throughout Value.IsUnbound)
    (made : Record.ofValue catalog schema (.row values) = .ok record) :
    ∃ field inner stored object shown,
      lastField? catalog schema (FieldPath.names text) = some field ∧
      path.extract (.row values) = .ok inner ∧
      inner.storedIn catalog field.kind field.reference = .ok stored ∧
      path.extract record.toValue = .ok stored ∧
      (Value.row values).toObject catalog schema = .ok object ∧
      inner.nativeIn catalog field.kind field.reference = .ok shown ∧
      path.extract object = .ok shown ∧
      ∀ before after, path.segments = before ++ after →
        FieldPath.walk text before (.row values) = .ok .null →
          inner = .null ∧ stored = .null ∧ shown = .null := by
  obtain ⟨rfl, followed⟩ := compile_eq_ok declared compiled
  have asRecord : Record.converting catalog (.row values) schema = .ok record.toValue := by
    rw [Record.converting, made]
    rfl
  have asObject : (Value.row values).toObject catalog schema = .ok record.toValue.asObject := by
    rw [Value.toObject_eq_map_converting unbound rfl, asRecord]
    rfl
  obtain ⟨field, inner, stored, last, read, converted, readRecord⟩ :=
    Record.showsFields_converting.walk followed names_ne_nil unbound asRecord
  obtain ⟨field', inner', shown, last', read', converted', readObject⟩ :=
    Value.showsFields_toObject.walk followed names_ne_nil unbound asObject
  cases last.symm.trans last'
  cases read.symm.trans read'
  refine ⟨field, inner, stored, _, shown, last, read, converted, readRecord, asObject, converted',
    readObject, fun before after split null => ?_⟩
  rw [split, walk_append, null] at read
  cases (walk_null after).symm.trans read
  cases converted
  cases converted'
  exact ⟨rfl, rfl, rfl⟩

section Link

open Record

/-- Three links, one behind the other. -/
def chainValues : List Value :=
  [.bigInt 1, .row [.smallInt 2, .row [.tinyInt 3]]]

theorem unbound_chainValues : (Value.row chainValues).Throughout Value.IsUnbound := by
  simp only [chainValues, Value.unbound_row_iff, List.forall_mem_cons, List.not_mem_nil]
  exact ⟨Value.unbound_scalar rfl trivial, ⟨Value.unbound_scalar rfl trivial,
    ⟨Value.unbound_scalar rfl trivial, nofun⟩, nofun⟩, nofun⟩

/-- The label of the link behind the next one. -/
def labelPath : FieldPath :=
  ⟨"next.next.label", [⟨"next", 1⟩, ⟨"next", 1⟩, ⟨"label", 0⟩], .varchar⟩

theorem names_labelPath :
    FieldPath.names "next.next.label" = ["next", "next", "label"] :=
  rfl

theorem compile_labelPath :
    compile linkCatalog ⟨"Link", .compact⟩ "next.next.label" = .ok labelPath := by
  have resolved : linkCatalog.resolve "Link" = .ok linkSchema :=
    Catalog.resolve_of_closed rfl (by decide)
  have next : linkSchema.field? "next" = some (.composite "next" "Link", 1) := rfl
  have label : linkSchema.field? "label" = some (.scalar "label" .string, 0) := rfl
  have followed : follow linkCatalog "next.next.label" .compact linkSchema
      ["next", "next", "label"] = .ok (labelPath.segments, labelPath.type) := by
    simp [follow, next, label, resolved, SchemaField.composite, bind, Except.bind]
    rfl
  rw [compile, if_neg (by decide), resolved, names_labelPath]
  exact Except.bind_eq_ok_iff.mpr ⟨linkSchema, rfl, Except.bind_eq_ok_iff.mpr ⟨_, followed, rfl⟩⟩

theorem extract_link :
    compile linkCatalog ⟨"Link", .compact⟩ "next.next.label" = .ok labelPath ∧
    (Value.row chainValues).Throughout Value.IsUnbound ∧
    (∃ record object, ofValue linkCatalog linkSchema (.row chainValues) = .ok record ∧
      labelPath.extract record.toValue = .ok (.varchar "3") ∧
      (Value.row chainValues).toObject linkCatalog linkSchema = .ok object ∧
      labelPath.extract object = .ok (.varchar "3")) ∧
    (Value.row linkValues).Throughout Value.IsUnbound ∧
    ∃ record object, ofValue linkCatalog linkSchema (.row linkValues) = .ok record ∧
      labelPath.extract record.toValue = .ok .null ∧
      (Value.row linkValues).toObject linkCatalog linkSchema = .ok object ∧
      labelPath.extract object = .ok .null := by
  refine ⟨compile_labelPath, unbound_chainValues, ?_, unbound_linkValues, ?_⟩
  · obtain ⟨field, inner, stored, object, shown, last, read, converted, readRecord, made, native,
      readObject, _⟩ := extract_converted compile_labelPath rfl unbound_chainValues rfl
    have ends : lastField? linkCatalog linkSchema (FieldPath.names "next.next.label") =
        some (.scalar "label" .string) := by
      rw [names_labelPath]
      rfl
    cases ends.symm.trans last
    cases read
    cases converted
    cases native
    exact ⟨_, object, rfl, readRecord, made, readObject⟩
  · obtain ⟨field, inner, stored, object, shown, _, _, _, readRecord, made, _, readObject, null⟩ :=
      extract_converted compile_labelPath rfl unbound_linkValues rfl
    -- The second link has nothing behind it.
    obtain ⟨_, rfl, rfl⟩ := null [⟨"next", 1⟩, ⟨"next", 1⟩] [⟨"label", 0⟩] rfl rfl
    exact ⟨_, object, rfl, readRecord, made, readObject⟩

end Link

end FieldPath

end RowProjection
