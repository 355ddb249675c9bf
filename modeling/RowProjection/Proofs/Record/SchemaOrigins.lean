import RowProjection.Proofs.Descriptor.Shipping
import RowProjection.Proofs.Record.RoundTrip
import RowProjection.Proofs.Record.Spelling

namespace RowProjection

open Descriptor Form

namespace Schema

/-- The fingerprint is the one that is taken of the name and the fields. -/
def IsIdentified (schema : Schema) : Prop :=
  schema.fingerprint = (ofFields schema.name schema.fields).fingerprint

instance : DecidablePred IsIdentified :=
  fun schema => inferInstanceAs (Decidable
    (schema.fingerprint = (ofFields schema.name schema.fields).fingerprint))

theorem IsIdentified.eq_ofFields {schema : Schema} (identified : schema.IsIdentified) :
    schema = ofFields schema.name schema.fields :=
  congrArg (Schema.mk schema.name schema.fields) identified

/-- Where a schema comes from: it is built at once or declared field by field, or it is read from a
JSON text or from bytes. -/
inductive Origin where
  | built (name : String) (fields : List SchemaField)
  | declared (name : String) (declarations : List SchemaField)
  | fromText (text : String)
  | fromBytes (bytes : List UInt8)

namespace Origin

/-- The schema of an origin, if there is one. -/
def schema? : Origin → Option Schema
  | built name fields => some (ofFields name fields)
  | declared name declarations => some (ofDeclarations name declarations)
  | fromText text => form.readJson? text
  | fromBytes bytes => form.readBytes? bytes

/-- The fingerprint that stands in a tree: in the member of this name, or as the third item. -/
def statedIn? : Json.Source → Option UInt32
  | .object found => (named? found).bind (Members.member? "fingerprint" word)
  | .array [_, _, item] => word.ofSource? item
  | _ => none

/-- Reads the fingerprint behind the name and the fields. -/
def scanStated : ByteScan UInt32 := do
  let _ ← Form.text.scan
  let _ ← (Form.list SchemaField.form).scan
  word.scan

/-- The fingerprint that an origin states. -/
def stated? : Origin → Option UInt32
  | built _ _ => none
  | declared _ _ => none
  | fromText text => (Json.Source.read? text.toList).bind statedIn?
  | fromBytes bytes => (scanStated.run bytes).map (·.1)

end Origin

theorem statedIn?_of_ofSource? {source : Json.Source} {schema : Schema}
    (read : form.ofSource? source = some schema) :
    Origin.statedIn? source = some schema.fingerprint := by
  rw [form, via, Option.map_eq_some_iff] at read
  obtain ⟨⟨name, fields, fingerprint, _⟩, read, rfl⟩ := read
  cases source with
  | object found =>
    obtain ⟨members, named, read⟩ := Option.bind_eq_some_iff.mp read
    have behindName := (Members.ofMembers?_cons_eq_some read).2
    have behindFields := (Members.ofMembers?_cons_eq_some behindName).2
    rw [Origin.statedIn?, named]
    exact (Members.ofMembers?_cons_eq_some behindFields).1
  | array items =>
    obtain ⟨⟨_, remaining⟩, read, ended⟩ := Option.bind_eq_some_iff.mp read
    obtain ⟨_, _, rfl, _, read⟩ := Members.ofItems?_cons_eq_some read
    obtain ⟨_, _, rfl, _, read⟩ := Members.ofItems?_cons_eq_some read
    obtain ⟨item, behind, rfl, stated, last⟩ := Members.ofItems?_cons_eq_some read
    cases last
    cases remaining with
    | nil =>
      cases ended
      exact stated
    | cons _ _ => cases ended
  | _ => cases read

theorem scanStated_of_scan {bytes rest : List UInt8} {schema : Schema}
    (read : form.scan.run bytes = some (schema, rest)) :
    Origin.scanStated.run bytes = some (schema.fingerprint, rest) := by
  obtain ⟨⟨⟨name, fields, fingerprint, _⟩, _⟩, read, same⟩ := Option.bind_eq_some_iff.mp read
  cases same
  obtain ⟨behindName, name, read⟩ := Members.scan_cons_eq_some "name" read
  obtain ⟨behindFields, fields, read⟩ := Members.scan_cons_eq_some "fields" read
  obtain ⟨_, stated, last⟩ := Members.scan_cons_eq_some "fingerprint" read
  cases last
  exact (Wire.ByteReader.run_bind_of name).trans ((Wire.ByteReader.run_bind_of fields).trans stated)

theorem Origin.stated?_of_text {text : String} {schema : Schema}
    (obtained : (Origin.fromText text).schema? = some schema) :
    (Origin.fromText text).stated? = some schema.fingerprint := by
  obtain ⟨source, read, accepted⟩ := Option.bind_eq_some_iff.mp obtained
  rw [stated?, read]
  exact statedIn?_of_ofSource? accepted

/-- An origin states no fingerprint and builds the schema with its own, or the schema has the one
that is stated. -/
theorem Origin.stated?_cases {origin : Origin} {schema : Schema}
    (obtained : origin.schema? = some schema) :
    origin.stated? = none ∧ schema.IsIdentified ∨ origin.stated? = some schema.fingerprint := by
  cases origin with
  | built name fields =>
    cases obtained
    exact .inl ⟨rfl, rfl⟩
  | declared name declarations =>
    cases obtained
    exact .inl ⟨rfl, rfl⟩
  | fromText text => exact .inr (stated?_of_text obtained)
  | fromBytes bytes =>
    obtain ⟨⟨_, rest⟩, scanned, rfl⟩ := Option.map_eq_some_iff.mp obtained
    exact .inr (congrArg (Option.map Prod.fst) (scanStated_of_scan scanned))

/-- Schemas that are built, and those that arrive where one of these was sent, in either form. -/
inductive Circulates : Schema → Prop where
  | built (name : String) (fields : List SchemaField) : Circulates (ofFields name fields)
  | declared (name : String) (declarations : List SchemaField) :
      Circulates (ofDeclarations name declarations)
  | byText {sent received : Schema} (origin : Circulates sent)
      (read : form.readJson? (form.writeJson sent) = some received) : Circulates received
  | byBytes {sent received : Schema} (origin : Circulates sent) (trailing : List UInt8)
      (short : (form.bytes sent).length < 2 ^ 64)
      (read : form.readBytes? (form.bytes sent ++ trailing) = some received) : Circulates received

theorem Circulates.identified {schema : Schema} (circulates : Circulates schema) :
    schema.IsIdentified := by
  induction circulates with
  | built | declared => rfl
  | @byText sent received _ read ih =>
    cases (lawful_form.ships sent).json.symm.trans read
    exact ih
  | @byBytes sent received _ trailing short read ih =>
    cases ((lawful_form.ships sent).bytes trailing short).symm.trans read
    exact ih

/-- The bytes behind the fingerprint of a record do not depend on it. -/
theorem exists_slots_of_encode {schema : Schema} {values : List Value} {bytes : List UInt8}
    (encoded : Record.encode ⟨schema, values⟩ = .ok bytes) :
    ∃ slots, ∀ other : Schema, other.fields = schema.fields →
      Record.encode ⟨other, values⟩ =
        .ok (Wire.littleEndian 4 other.fingerprint.toNat ++ slots) := by
  obtain ⟨_, slots, _, written, _⟩ := Except.both_eq_ok_iff.mp encoded
  refine ⟨slots, fun other same => ?_⟩
  rw [← same] at written
  exact Except.both_eq_ok_iff.mpr ⟨_, slots, rfl, written, rfl⟩

/-- A record that is written under a schema is read under the declared one with the same name and
fields exactly if its schema is identified. -/
theorem read_iff_identified {catalog : Catalog} (indexed : catalog.Indexed) (schema : Schema)
    {values : List Value}
    (storable : (Record.mk (ofFields schema.name schema.fields) values).Storable catalog)
    (regular : (Record.mk (ofFields schema.name schema.fields) values).HasRegularTimestamps) :
    ∃ bytes, Record.encode ⟨schema, values⟩ = .ok bytes ∧ ∀ trailing,
      ((Record.read catalog).run (bytes ++ trailing) =
        .ok (⟨ofFields schema.name schema.fields, values⟩, trailing) ↔ schema.IsIdentified) := by
  obtain ⟨_, encoded⟩ := Record.exists_encode storable.kinded storable.textsFit
  obtain ⟨slots, written⟩ := exists_slots_of_encode encoded
  have own := written schema rfl
  refine ⟨_, own, fun trailing => ⟨fun read => ?_, fun identified => ?_⟩⟩
  · rw [List.append_assoc] at read
    exact (indexed _ _ (Record.found_of_read read)).1.symm
  · rw [identified.eq_ofFields] at own
    rw [show schema.fingerprint = _ from identified]
    exact (Record.decides_read storable own).reads regular trailing

/-- A schema that is built, or that arrives where one of these was sent, has the fingerprint of its
name and fields. One that is read from anything else has it exactly if what it is read from states
no other. With it, equal layouts have equal fingerprints, and records that are written under the
schema are read under the one that is declared with the same name and fields; without it they are
not. -/
theorem identified_by_origin (origin : Origin) (schema : Schema)
    (obtained : origin.schema? = some schema) :
    (Circulates schema → schema.IsIdentified) ∧
    (schema.IsIdentified ↔ ∀ stated, origin.stated? = some stated →
      stated = (ofFields schema.name schema.fields).fingerprint) ∧
    (schema.IsIdentified → ∀ other : Schema, other.IsIdentified →
      layout schema.name schema.fields = layout other.name other.fields →
        schema.fingerprint = other.fingerprint) ∧
    ∀ (run : List Declaration) (values : List Value),
      (Record.mk (ofFields schema.name schema.fields) values).Storable
        (Catalog.empty.declared run) →
      (Record.mk (ofFields schema.name schema.fields) values).HasRegularTimestamps →
      ∃ bytes, Record.encode ⟨schema, values⟩ = .ok bytes ∧ ∀ trailing,
        ((Record.read (Catalog.empty.declared run)).run (bytes ++ trailing) =
          .ok (⟨ofFields schema.name schema.fields, values⟩, trailing) ↔ schema.IsIdentified) := by
  refine ⟨Circulates.identified, ?_, fun first other second same => ?_,
    fun run values storable regular => ?_⟩
  · rcases Origin.stated?_cases obtained with ⟨unstated, identified⟩ | stated
    · simp [unstated, identified]
    · simp [stated, IsIdentified]
  · rw [first, second]
    exact congrArg Fingerprint.ofBytes same
  · exact read_iff_identified (Catalog.indexed_declared run) schema storable regular

section Labels

def labelFields : List SchemaField :=
  [.scalar "text" .string]

def labelSchema : Schema :=
  .ofFields "Label" labelFields

/-- The same label with a fingerprint that is not its own. -/
def staleLabel : Schema :=
  ⟨"Label", labelFields, 0⟩

def staleText : String :=
  "\x7b\"name\":\"Label\",\"fields\":[[\"text\",\"String\",null]],\"fingerprint\":0\x7d"

def labelRun : List Declaration :=
  [.create labelSchema]

private theorem storable_label :
    (Record.mk labelSchema [.varchar "new"]).Storable (Catalog.empty.declared labelRun) := by
  have throughout {holds : Value → Prop} (whole : holds (.record labelSchema [.varchar "new"]))
      (text : holds (.varchar "new")) :
      (Value.record labelSchema [.varchar "new"]).Throughout holds := by
    refine Value.throughout_iff.mpr ⟨whole, fun part member => ?_⟩
    cases List.mem_singleton.mp member
    exact (Value.throughout_iff_self rfl).mpr text
  have kinded : (Record.mk labelSchema [.varchar "new"]).IsKinded :=
    .cons (.inr (List.mem_singleton.mpr rfl)) .nil
  have known : (Catalog.empty.declared labelRun).findByFingerprint? labelSchema.fingerprint =
      some labelSchema := by
    decide +kernel
  have short : ¬ (Value.varchar "new").IsLongText := Nat.not_le.mpr (by decide)
  exact ⟨throughout kinded trivial, throughout id short, throughout id id, throughout known trivial⟩

private theorem schema_staleText : (Origin.fromText staleText).schema? = some staleLabel := by
  rfl

/-- A label that is sent on keeps its fingerprint, and a record under it is read. A label that is
read from a text with another fingerprint has that one. -/
theorem identified_labels :
    form.readJson? (form.writeJson labelSchema) = some labelSchema ∧ labelSchema.IsIdentified ∧
    (∃ bytes, Record.encode ⟨labelSchema, [.varchar "new"]⟩ = .ok bytes ∧ ∀ trailing,
      (Record.read (Catalog.empty.declared labelRun)).run (bytes ++ trailing) =
        .ok (⟨labelSchema, [.varchar "new"]⟩, trailing)) ∧
    (Origin.fromText staleText).schema? = some staleLabel ∧ ¬ staleLabel.IsIdentified := by
  have back : form.readJson? (form.writeJson labelSchema) = some labelSchema :=
    (lawful_form.ships labelSchema).json
  have regular : (Record.mk labelSchema [.varchar "new"]).HasRegularTimestamps := by
    refine Value.throughout_iff.mpr ⟨trivial, fun part member => ?_⟩
    cases List.mem_singleton.mp member
    exact (Value.throughout_iff_self rfl).mpr trivial
  obtain ⟨circulating, _, _, shipped⟩ :=
    identified_by_origin (.fromText (form.writeJson labelSchema)) labelSchema back
  have identified : labelSchema.IsIdentified :=
    circulating (.byText (.built "Label" labelFields) back)
  obtain ⟨bytes, encoded, reads⟩ := shipped labelRun [.varchar "new"] storable_label regular
  have stated : (Origin.fromText staleText).stated? = some 0 :=
    Origin.stated?_of_text schema_staleText
  have other : (0 : UInt32) ≠ labelSchema.fingerprint := by decide +kernel
  obtain ⟨_, unstated, _⟩ := identified_by_origin (.fromText staleText) staleLabel schema_staleText
  refine ⟨back, identified, ⟨bytes, encoded, fun trailing => (reads trailing).mpr identified⟩,
    schema_staleText, ?_⟩
  intro stale
  exact other (unstated.mp stale 0 stated)

/-- The stale label is accepted, and what is written under it is refused under the label that is
declared with the same name and fields. -/
theorem staleLabel_read :
    (Origin.fromText staleText).schema? = some staleLabel ∧ ¬ staleLabel.IsIdentified ∧
    ∃ bytes, Record.encode ⟨staleLabel, [.varchar "new"]⟩ = .ok bytes ∧
      (Record.read (Catalog.empty.declared labelRun)).run bytes =
        .error (.unknownFingerprint 0) := by
  have missing : (Catalog.empty.declared labelRun).findByFingerprint? 0 = none := by
    decide +kernel
  exact ⟨schema_staleText, by decide +kernel, _, rfl, Record.failsWith_unknown missing _⟩

end Labels

end Schema

end RowProjection
