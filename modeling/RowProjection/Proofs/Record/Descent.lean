import RowProjection.Proofs.Record.Ready
import RowProjection.Proofs.Value.Depth

/-! How far conversions descend. They call themselves for the parts of a value only, whatever the
schemas refer to, so that a value is converted in as many levels as it is deep. What comes out is no
deeper. Against a name that resolves, no type is ever missing on the way. -/

namespace RowProjection

variable {catalog : Catalog} {schema : Schema} {value : Value} {failure : Failure}

theorem Value.depth_of_mem_fieldKinds {kind : FieldKind} (held : kind ∈ value.fieldKinds)
    (scalar : kind ≠ .compact) : value.depth = 0 := by
  cases value with
  | record => exact absurd (List.mem_singleton.mp held) scalar
  | map | row | object => cases held
  | _ => rfl

/-- What is stored in a field is no deeper than what the conversion of nested values makes. -/
theorem depth_of_convertField {owner : TypeKind} {kind : FieldKind} {reference : Option String}
    {converted : Value} {nested : Schema → Except Failure Value} {bound : Nat}
    (deeper : ∀ inner result, nested inner = .ok result → result.depth ≤ bound)
    (success : convertField catalog owner kind reference value nested = .ok converted) :
    converted.depth ≤ bound := by
  rcases convertField_cases success with rfl | ⟨_, inner, _, _, _, made⟩ |
    ⟨type, scalar, present, typed, success⟩
  · exact Nat.zero_le bound
  · exact deeper inner converted made
  · have held := Value.mem_fieldKinds_of_convertTo scalar present typed success
    rw [Value.depth_of_mem_fieldKinds held scalar]
    exact Nat.zero_le bound

namespace Record

/-- The values of a row for the fields at their positions, where the conversion of nested values is
open. -/
def fillRow (catalog : Catalog) (nested : Value → Schema → Except Failure Value) :
    List SchemaField → List Value → Except Failure (List Value)
  | fields, [] => .ok (fields.map fun _ => .null)
  | [], _ :: _ => .ok []
  | field :: more, value :: rest => do
    let head ← convertField catalog .compact field.kind field.reference value (nested value)
    let tail ← fillRow catalog nested more rest
    return head :: tail

/-- Named values for the fields of their names, where the conversion of nested values is open. -/
def fillNamed (catalog : Catalog) (nested : Value → Schema → Except Failure Value)
    (schema : Schema) : List (String × Value) → List Value → Except Failure (List Value)
  | [], slots => .ok slots
  | (name, value) :: rest, slots => do
    let slots ← fillSlot catalog schema name value (nested value) slots
    fillNamed catalog nested schema rest slots

/-- One level of the conversion to records. -/
def level (catalog : Catalog) (nested : Value → Schema → Except Failure Value) (value : Value)
    (schema : Schema) : Except Failure Value :=
  match value with
  | .record own values =>
    if own.name = schema.name then .ok (.record own values)
    else
      (fillNamed catalog nested schema ((own.fields.map (·.name)).zip values)
        (emptySlots schema)).map (.record schema)
  | .row values => (fillRow catalog nested schema.fields values).map (.record schema)
  | .object _ fields =>
    (fillNamed catalog nested schema fields (emptySlots schema)).map (.record schema)
  | value => .error (.error (.conversion value.kindName schema.name))

theorem fillRow_converting (fields : List SchemaField) (values : List Value) :
    fillRow catalog (converting catalog) fields values = ofRow catalog fields values := by
  induction values generalizing fields with
  | nil => cases fields <;> rfl
  | cons value values ih =>
    cases fields with
    | nil => rfl
    | cons field fields =>
      rw [fillRow, ofRow, ih]
      rfl

theorem fillNamed_converting (fields : List (String × Value)) (slots : List Value) :
    fillNamed catalog (converting catalog) schema fields slots =
      ofObjectFields catalog schema fields slots := by
  induction fields generalizing slots with
  | nil => rfl
  | cons field fields ih =>
    rw [fillNamed, ofObjectFields]
    exact bind_congr ih

theorem map_toValue (slots : Except Failure (List Value)) :
    (slots.map (Record.mk schema)).map toValue = slots.map (.record schema) := by
  cases slots <;> rfl

/-- The conversion to records is a solution of its recursion. -/
theorem level_converting (catalog : Catalog) :
    level catalog (converting catalog) = converting catalog := by
  funext value schema
  cases value with
  | record own values =>
    rw [level, converting, ofValue, fillNamed_converting, ofRecordFields_eq]
    split
    · rfl
    · exact (map_toValue _).symm
  | row values =>
    rw [level, converting, ofValue, fillRow_converting]
    exact (map_toValue _).symm
  | object typeName fields =>
    rw [level, converting, ofValue, fillNamed_converting]
    exact (map_toValue _).symm
  | _ => rfl

variable {first second : Value → Schema → Except Failure Value}

theorem fillRow_congr {values : List Value} (same : ∀ part ∈ values, first part = second part)
    (fields : List SchemaField) :
    fillRow catalog first fields values = fillRow catalog second fields values := by
  induction values generalizing fields with
  | nil => cases fields <;> rfl
  | cons value values ih =>
    rw [List.forall_mem_cons] at same
    cases fields with
    | nil => rfl
    | cons field fields => rw [fillRow, fillRow, same.1, ih same.2]

theorem fillNamed_congr {fields : List (String × Value)}
    (same : ∀ part ∈ fields.map (·.2), first part = second part) (slots : List Value) :
    fillNamed catalog first schema fields slots = fillNamed catalog second schema fields slots := by
  induction fields generalizing slots with
  | nil => rfl
  | cons field fields ih =>
    rw [List.map_cons, List.forall_mem_cons] at same
    rw [fillNamed, fillNamed, same.1]
    exact bind_congr (ih same.2)

/-- A level asks for the conversion of the parts of a value, which are less deep. -/
theorem level_congr (same : ∀ part : Value, part.depth < value.depth → first part = second part) :
    level catalog first value = level catalog second value := by
  have parts (structured : value.IsStructured) :
      ∀ part ∈ value.components, first part = second part :=
    fun part member => same part (Value.depth_lt_of_component structured member)
  funext schema
  cases value with
  | record own values =>
    have same : ∀ part ∈ ((own.fields.map (·.name)).zip values).map (·.2),
        first part = second part :=
      fun part member => parts trivial part (Value.mem_of_mem_zip member)
    rw [level, level, fillNamed_congr same]
  | row values =>
    have same : ∀ part ∈ values, first part = second part := parts trivial
    rw [level, level, fillRow_congr same]
  | object typeName fields =>
    have same : ∀ part ∈ fields.map (·.2), first part = second part := parts trivial
    rw [level, level, fillNamed_congr same]
  | _ => rfl

theorem structured_of_ofValue {record : Record} (made : ofValue catalog schema value = .ok record) :
    value.IsStructured := by
  cases value with
  | row | record | object => trivial
  | _ => cases made

/-- The records made of a value are no deeper than it. -/
theorem depth_of_ofValue {record : Record} (made : ofValue catalog schema value = .ok record) :
    record.toValue.depth ≤ value.depth := by
  induction value using Value.componentInduction generalizing schema record with
  | step value ih =>
    rcases ofValue_cases made with same | ⟨_, slots⟩
    · rw [same]
    · have own : record.toValue.depth = Value.deepest record.values + 1 := rfl
      rw [own, Value.depth_of_structured (structured_of_ofValue made)]
      apply Nat.succ_le_succ
      rw [Value.deepest_le_iff]
      intro slot member
      cases slots slot member with
      | null => exact Nat.zero_le _
      | nested part nestedMade =>
        exact Nat.le_trans (ih _ part nestedMade) (Value.depth_le_deepest part)
      | scalar held scalar =>
        rw [Value.depth_of_mem_fieldKinds held scalar]
        exact Nat.zero_le _

end Record

namespace Value

variable {first second : Value → Schema → Except Failure Value}

/-- A level asks for the conversion of the parts of a value, which are less deep. -/
theorem level_congr (same : ∀ part : Value, part.depth < value.depth → first part = second part) :
    level catalog first value = level catalog second value := by
  have parts (structured : value.IsStructured) :
      objectOf catalog first value = objectOf catalog second value := by
    funext schema
    rw [objectOf, objectOf]
    congr
    funext index name
    refine Option.map_congr fun part found => ?_
    rw [same part (depth_lt_of_component structured (mem_of_fieldOf? found))]
  funext schema
  cases value with
  | row | record | object => rw [level, level, parts trivial]
  | _ => rfl

theorem depth_of_objectFields {part? : Nat → String → Option Part} {index bound : Nat}
    {fields : List SchemaField} {named : List (String × Value)}
    (shallow : ∀ index name part inner result, part? index name = some part →
      part.toObject inner = .ok result → result.depth ≤ bound)
    (success : objectFields catalog part? index fields = .ok named) :
    deepest (named.map (·.2)) ≤ bound := by
  induction fields generalizing index named with
  | nil =>
    cases success
    exact Nat.zero_le bound
  | cons field fields ih =>
    have later (converted : Value) (within : converted.depth ≤ bound)
        (success : (objectFields catalog part? (index + 1) fields >>=
          fun others => pure ((field.name, converted) :: others)) = .ok named) :
        deepest (named.map (·.2)) ≤ bound := by
      obtain ⟨others, behind, success⟩ := Except.bind_eq_ok_iff.mp success
      cases success
      exact Nat.max_le.mpr ⟨within, ih behind⟩
    rw [objectFields] at success
    split at success
    · next part found =>
      obtain ⟨converted, here, success⟩ := Except.bind_eq_ok_iff.mp success
      refine later converted (depth_of_convertField (fun inner result => ?_) here) success
      exact shallow _ _ _ inner result found
    · exact later null (Nat.zero_le bound) success

/-- The objects made of a value are no deeper than it. -/
theorem depth_of_toObject {result : Value} (made : value.toObject catalog schema = .ok result) :
    result.depth ≤ value.depth := by
  induction value using componentInduction generalizing schema result with
  | step value ih =>
    have assembled (structured : value.IsStructured)
        (made : objectOf catalog (toObject catalog) value schema = .ok result) :
        result.depth ≤ value.depth := by
      obtain ⟨named, converted, rfl⟩ := Except.map_eq_ok_iff.mp made
      have own : (object schema.name named).depth = deepest (named.map (·.2)) + 1 :=
        depth_of_structured trivial
      rw [own, depth_of_structured structured]
      apply Nat.succ_le_succ
      refine depth_of_objectFields (fun index name part inner result found nested => ?_) converted
      obtain ⟨member, same⟩ := part_of_fieldOf? found
      rw [same] at nested
      exact Nat.le_trans (ih part.value member nested) (depth_le_deepest member)
    rw [← level_toObject] at made
    cases value with
    | null =>
      cases made
      exact Nat.le_refl _
    | object typeName fields =>
      rw [level] at made
      split at made
      · cases made
        exact Nat.le_refl _
      · exact assembled trivial made
    | row | record => exact assembled trivial made
    | _ => cases made

end Value

theorem Failure.OfConversion.ne_missingType {meets : SchemaField → Prop}
    (fails : failure.OfConversion meets value) (missing : String) :
    failure ≠ .error (.missingType missing) := by
  rintro rfl
  cases fails

/-- Against a name that resolves, every value is converted to a record and to an object in as many
levels as it is deep and one more, whatever the schemas refer to. The results are no deeper than the
value, and no type is missing. -/
theorem conversions_of_resolved (catalog : Catalog) (name : String) (schema : Schema)
    (resolved : catalog.resolve name = .ok schema) (value : Value) :
    (∀ beyond levels, value.depth < levels →
      (Record.level catalog)^[levels] beyond value schema =
        (Record.ofValue catalog schema value).map Record.toValue ∧
      (Value.level catalog)^[levels] beyond value schema = value.toObjectOf catalog name) ∧
    (∀ record, Record.ofValue catalog schema value = .ok record →
      record.toValue.depth ≤ value.depth) ∧
    (∀ object, value.toObjectOf catalog name = .ok object → object.depth ≤ value.depth) ∧
    ∀ missing, Record.ofValue catalog schema value ≠ .error (.error (.missingType missing)) ∧
      value.toObjectOf catalog name ≠ .error (.error (.missingType missing)) := by
  have found := Catalog.find?_of_resolve resolved
  have covers := covers_ofConversion (closedUnder_reaches resolved)
  rw [Value.toObjectOf, found]
  refine ⟨fun beyond levels enough => ⟨?_, ?_⟩, fun _ => Record.depth_of_ofValue,
    fun _ => Value.depth_of_toObject, fun missing => ⟨fun failed => ?_, fun failed => ?_⟩⟩
  · exact congrFun (Value.iterate_eq_of_shallower (Record.level_converting catalog)
      (fun _ _ _ => Record.level_congr) beyond enough) schema
  · exact congrFun (Value.iterate_eq_of_shallower (Value.level_toObject catalog)
      (fun _ _ _ => Value.level_congr) beyond enough) schema
  · have fails := Record.failsAmong_converting covers value schema _ (.declared found)
      (Except.map_eq_error_iff.mpr failed)
    exact fails.ne_missingType missing rfl
  · have fails := Value.failsAmong_toObject covers value schema _ (.declared found) failed
    exact fails.ne_missingType missing rfl

section Authors

/-- Authors and books refer to each other. -/
def authorSchema : Schema :=
  .ofFields "Author" [.scalar "name" .string, .composite "latest" "Book"]

def bookSchema : Schema :=
  .ofFields "Book" [.composite "author" "Author"]

def bookCatalog : Catalog :=
  (Catalog.empty.insert authorSchema).insert bookSchema

/-- An author with a book, and the author of that without any. -/
def authorValue : Value :=
  .row [.varchar "Ada", .row [.row [.varchar "Ada"]]]

private theorem resolve_author : bookCatalog.resolve "Author" = .ok authorSchema := by
  have author : bookCatalog.find? "Author" = some authorSchema := rfl
  have book : bookCatalog.find? "Book" = some bookSchema := rfl
  rw [Catalog.resolve, Catalog.closure, Catalog.walk_found List.not_mem_nil author]
  change (discard (Except.map _ (bookCatalog.walk ["Author"] ["Book"])) >>= _) = _
  rw [Catalog.walk_found (by decide) book, Catalog.walk_visited (by decide)]
  rfl

theorem conversions_of_author :
    bookCatalog.resolve "Author" = .ok authorSchema ∧ authorValue.depth = 3 ∧
    (∃ record, (Record.level bookCatalog)^[4] (fun _ _ => .ok .null) authorValue authorSchema =
      .ok (Record.toValue record) ∧ record.toValue.depth ≤ 3) ∧
    ∃ object, (Value.level bookCatalog)^[4] (fun _ _ => .ok .null) authorValue authorSchema =
      .ok object ∧ object.depth ≤ 3 := by
  obtain ⟨settled, asRecord, asObject, _⟩ :=
    conversions_of_resolved bookCatalog "Author" authorSchema resolve_author authorValue
  obtain ⟨toRecord, toObject⟩ := settled (fun _ _ => .ok .null) 4 (by decide)
  exact ⟨resolve_author, rfl, ⟨_, toRecord.trans rfl, asRecord _ rfl⟩,
    _, toObject.trans rfl, asObject _ rfl⟩

end Authors

end RowProjection
