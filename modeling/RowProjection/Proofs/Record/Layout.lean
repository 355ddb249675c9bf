import RowProjection.Proofs.Record.Spelling

/-! The bytes that are read as records. Each record, also one within another, stands behind a
fingerprint, and is of the schema that the catalog finds by it; the type that a composite field
refers to has no part in it. -/

namespace RowProjection

open Wire

/-- Each schema that is found by a fingerprint has the name that every composite field of such
schemas refers to. -/
def Catalog.AgreesWithReferences (catalog : Catalog) : Prop :=
  ∀ {outerPrint innerPrint : UInt32} {outer inner : Schema} {field : SchemaField}
    {typeName : String}, catalog.findByFingerprint? outerPrint = some outer →
      catalog.findByFingerprint? innerPrint = some inner → field ∈ outer.fields →
        field.kind = .compact → field.reference = some typeName → inner.name = typeName

namespace Record

/-- The catalog finds the schema of the record by some fingerprint, and each slot holds null or a
value of the kind of its field. -/
structure Admitted (catalog : Catalog) (record : Record) : Prop where
  known : ∃ fingerprint, catalog.findByFingerprint? fingerprint = some record.schema
  kinded : record.IsKinded

/-- Each slot of a composite field with a reference holds null, or a record of the type that the
field refers to. -/
def FollowsReferences (record : Record) : Prop :=
  ∀ (slot : Nat) (field : SchemaField) (typeName : String) (value : Value),
    record.schema.fields[slot]? = some field → record.values[slot]? = some value →
      field.kind = .compact → field.reference = some typeName →
        value = .null ∨ ∃ schema values, value = .record schema values ∧ schema.name = typeName

variable {catalog : Catalog} {fields : List SchemaField} {bytes rest : List UInt8}
  {values : List Value} {record : Record} {payloads : List (FieldKind × List UInt8)}

theorem ofBytes_eq_ok_iff :
    ofBytes catalog bytes = .ok record ↔ ∃ rest, (read catalog).run bytes = .ok (record, rest) := by
  change Except.mapError Error.encoding (Except.map (·.1) ((read catalog).run bytes)) = _ ↔ _
  cases (read catalog).run bytes with
  | error fault => simp [Except.map, Except.mapError]
  | ok result => simp [Except.map, Except.mapError, Prod.ext_iff]

/-- The bytes begin with a spelling of the record that is read off them, and no record is read off
other bytes. -/
theorem ofBytes_eq_ok_iff_spelled :
    ofBytes catalog bytes = .ok record ↔
      ∃ taken payloads rest, bytes = taken ++ rest ∧ Spelled catalog taken record payloads := by
  rw [ofBytes_eq_ok_iff]
  constructor
  · rintro ⟨rest, read⟩
    obtain ⟨taken, payloads, parts, spelled⟩ := spelled_of_read read
    exact ⟨taken, payloads, rest, parts, spelled⟩
  · rintro ⟨taken, payloads, rest, rfl, spelled⟩
    exact ⟨rest, spelled.read rest⟩

theorem admitted_of_ofBytes (decoded : ofBytes catalog bytes = .ok record) :
    record.toValue.Throughout (Value.OnRecord (Admitted catalog)) := by
  obtain ⟨taken, payloads, rest, _, spelled⟩ := ofBytes_eq_ok_iff_spelled.mp decoded
  exact spelled.onRecords fun fingerprint _ _ found kinded => ⟨⟨fingerprint, found⟩, kinded⟩

/-- Fields that are absent, in front of others. -/
theorem SlotsSpelled.behind_absent (spelled : SlotsSpelled catalog fields bytes values payloads)
    (absent : List SchemaField) :
    SlotsSpelled catalog (absent ++ fields) ((absent.map fun _ => 0) ++ bytes)
      ((absent.map fun _ => .null) ++ values) payloads := by
  induction absent with
  | nil => exact spelled
  | cons field absent ih => exact .absent ih

theorem slotsSpelled_absent (catalog : Catalog) (fields : List SchemaField) :
    SlotsSpelled catalog fields (fields.map fun _ => 0) (fields.map fun _ => .null) [] := by
  have spelled := (@SlotsSpelled.done catalog).behind_absent fields
  rwa [List.append_nil, List.append_nil, List.append_nil] at spelled

/-- A composite field takes a record of any schema that the catalog finds. -/
theorem ofBytes_nested {outer inner : Schema} {outerPrint innerPrint : UInt32}
    {before after : List SchemaField} {field : SchemaField}
    (outerFound : catalog.findByFingerprint? outerPrint = some outer)
    (innerFound : catalog.findByFingerprint? innerPrint = some inner)
    (fields : outer.fields = before ++ field :: after) (composite : field.kind = .compact) :
    ofBytes catalog (littleEndian 4 outerPrint.toNat ++ ((before.map fun _ => 0) ++
        (1 :: (littleEndian 4 innerPrint.toNat ++ inner.fields.map fun _ => 0) ++
          after.map fun _ => 0))) =
      .ok ⟨outer, (before.map fun _ => .null) ++ (empty inner).toValue ::
        after.map fun _ => .null⟩ := by
  have slots := (SlotsSpelled.nested composite innerFound (slotsSpelled_absent catalog inner.fields)
    (slotsSpelled_absent catalog after)).behind_absent before
  rw [← fields] at slots
  exact ofBytes_eq_ok_iff_spelled.mpr
    ⟨_, _, [], (List.append_nil _).symm, .record outerFound slots⟩

/-- A record within others is known by its own fingerprint, so a composite field holds one of its
type where no other type is known. -/
theorem followsReferences_of_admitted {value : Value}
    (agrees : catalog.AgreesWithReferences)
    (admitted : value.Throughout (Value.OnRecord (Admitted catalog))) :
    value.Throughout (Value.OnRecord FollowsReferences) := by
  intro part occurs
  have within := admitted.within occurs
  cases part with
  | record outer values =>
    intro slot field typeName value fieldAt valueAt composite reference
    obtain ⟨⟨outerPrint, outerFound⟩, kinded⟩ := within.self
    obtain ⟨below, sameField⟩ := List.getElem?_eq_some_iff.mp fieldAt
    obtain ⟨within', sameValue⟩ := List.getElem?_eq_some_iff.mp valueAt
    have holds : (outer.fields[slot]).Holds values[slot] := kinded.get below within'
    rw [sameField, sameValue] at holds
    rcases holds with null | held
    · exact .inl null
    · rw [composite] at held
      obtain ⟨inner, slots, rfl⟩ := Value.exists_record held
      obtain ⟨⟨innerPrint, innerFound⟩, _⟩ := (within.part (List.mem_of_getElem? valueAt)).self
      exact .inr ⟨inner, slots, rfl, agrees outerFound innerFound
        (List.mem_of_getElem? fieldAt) composite reference⟩
  | _ => trivial

/-- A record is read exactly off the bytes that begin with a spelling of it, in which each record,
also one within others, has the schema that the catalog finds by the fingerprint in front of its
slots, and each scalar slot the bytes that are accepted for its value. So all records within are of
schemas found by fingerprints, with values of the kinds of their fields. They are of the types that
their fields refer to, whatever the bytes are, exactly if the catalog finds no others. -/
theorem ofBytes_follows_fingerprints (catalog : Catalog) :
    (∀ bytes record, ofBytes catalog bytes = .ok record ↔
      ∃ taken payloads rest, bytes = taken ++ rest ∧ Spelled catalog taken record payloads) ∧
    (∀ bytes record, ofBytes catalog bytes = .ok record →
      record.toValue.Throughout (Value.OnRecord (Admitted catalog))) ∧
    ((∀ bytes record, ofBytes catalog bytes = .ok record →
        record.toValue.Throughout (Value.OnRecord FollowsReferences)) ↔
      catalog.AgreesWithReferences) := by
  refine ⟨fun bytes record => ofBytes_eq_ok_iff_spelled, fun bytes record => admitted_of_ofBytes,
    ?_, ?_⟩
  · intro follows outerPrint innerPrint outer inner field typeName outerFound innerFound member
      composite reference
    obtain ⟨before, after, fields⟩ := List.append_of_mem member
    have own := (follows _ _ (ofBytes_nested outerFound innerFound fields composite)).self
    rcases own before.length field typeName (empty inner).toValue (by simp [fields])
      (by simp) composite reference with absent | ⟨schema, values, same, named⟩
    · cases absent
    · cases same
      exact named
  · intro agrees bytes record read
    exact followsReferences_of_admitted agrees (admitted_of_ofBytes read)

section Crates

/-- A schema with a field for records of another one. -/
def crateSchema : Schema :=
  .ofFields "Crate" [.composite "content" "Tool"]

def crateCatalog : Catalog :=
  (Catalog.empty.insert (.ofFields "Tool" [])).insert crateSchema

/-- An empty crate in the place of a tool. -/
def crateBytes : List UInt8 :=
  littleEndian 4 crateSchema.fingerprint.toNat ++
    1 :: (littleEndian 4 crateSchema.fingerprint.toNat ++ [0])

private theorem found_crate :
    crateCatalog.findByFingerprint? crateSchema.fingerprint = some crateSchema := by
  rw [crateCatalog, Catalog.findByFingerprint?_insert, if_pos rfl]

private theorem ofBytes_crateBytes :
    ofBytes crateCatalog crateBytes = .ok ⟨crateSchema, [(empty crateSchema).toValue]⟩ := by
  have fields : crateSchema.fields = [] ++ SchemaField.composite "content" "Tool" :: [] := rfl
  have read := ofBytes_nested found_crate found_crate fields rfl
  simpa only [fields, crateBytes, List.map_nil, List.map_cons, List.nil_append, List.append_nil]
    using read

theorem ofBytes_crate : ofBytes crateCatalog crateBytes =
      .ok ⟨crateSchema, [(empty crateSchema).toValue]⟩ ∧
    (∃ taken payloads rest, crateBytes = taken ++ rest ∧
      Spelled crateCatalog taken ⟨crateSchema, [(empty crateSchema).toValue]⟩ payloads) ∧
    (Record.toValue ⟨crateSchema, [(empty crateSchema).toValue]⟩).Throughout
      (Value.OnRecord (Admitted crateCatalog)) ∧
    ¬ crateCatalog.AgreesWithReferences := by
  obtain ⟨spells, admits, _⟩ := ofBytes_follows_fingerprints crateCatalog
  refine ⟨ofBytes_crateBytes, (spells _ _).mp ofBytes_crateBytes, admits _ _ ofBytes_crateBytes,
    fun agrees => ?_⟩
  have named : "Crate" = "Tool" :=
    agrees found_crate found_crate (List.mem_singleton.mpr rfl) rfl rfl
  exact absurd named (by decide)

/-- A crate is read where a tool is referred to. -/
theorem crate_in_place_of_tool : ∃ record, ofBytes crateCatalog crateBytes = .ok record ∧
    ¬ record.toValue.Throughout (Value.OnRecord FollowsReferences) := by
  refine ⟨_, ofBytes_crateBytes, fun follows => ?_⟩
  rcases follows.self 0 (.composite "content" "Tool") "Tool" (empty crateSchema).toValue rfl rfl rfl
    rfl with absent | ⟨schema, values, same, named⟩
  · cases absent
  · cases same
    exact absurd named (by decide)

end Crates

end Record

end RowProjection
