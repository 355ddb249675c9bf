import RowProjection.Proofs.Record.Ready
import RowProjection.Proofs.Record.Spelling

namespace RowProjection

open Wire

namespace RecordBuilder

/-- A call on a builder. -/
inductive Call where
  | set (index : Nat) (value : Value)
  | setNamed (name : String) (value : Value)
  | reset

/-- The values that a call hands over. -/
def Call.values : Call → List Value
  | set _ value => [value]
  | setNamed _ value => [value]
  | reset => []

/-- The builder behind a call. A call that fails leaves it as it was. -/
def after (builder : RecordBuilder) : Call → RecordBuilder
  | .set index value => (builder.set index value).toOption.getD builder
  | .setNamed name value => (builder.setNamed name value).toOption.getD builder
  | .reset => builder.reset

theorem set_cases (builder : RecordBuilder) (index : Nat) (value : Value) :
    (builder.set index value).toOption.getD builder = builder ∨
      (builder.set index value).toOption.getD builder =
        { builder with slots := builder.slots.set index value } := by
  rw [set]
  split
  · exact .inr rfl
  · exact .inl rfl

/-- A call changes nothing, empties the slots, or puts its value into one of them. -/
theorem after_cases (builder : RecordBuilder) (call : Call) :
    builder.after call = builder ∨ builder.after call = builder.reset ∨
      ∃ index, ∃ value ∈ call.values,
        builder.after call = { builder with slots := builder.slots.set index value } := by
  cases call with
  | set index value =>
    rcases builder.set_cases index value with same | filled
    · exact .inl same
    · exact .inr (.inr ⟨index, value, List.mem_singleton.mpr rfl, filled⟩)
  | setNamed name value =>
    rw [after, setNamed]
    split
    · next index _ =>
      rcases builder.set_cases index value with same | filled
      · exact .inl same
      · exact .inr (.inr ⟨index, value, List.mem_singleton.mpr rfl, filled⟩)
    · exact .inl rfl
  | reset => exact .inr (.inl rfl)

end RecordBuilder

namespace Record

/-- The records that can be obtained. The values that records are built or converted from may hold
any records that were obtained before. -/
inductive Obtainable : Record → Prop where
  | empty (schema : Schema) : Obtainable (empty schema)
  | built (schema : Schema) (calls : List RecordBuilder.Call)
      (given : ∀ call ∈ calls, ∀ value ∈ call.values, ∀ inner : Record,
        inner.toValue.OccursIn value → Obtainable inner) :
      Obtainable (calls.foldl RecordBuilder.after (.new schema)).build
  | converted {catalog : Catalog} {schema : Schema} {value : Value} {record : Record}
      (given : ∀ inner : Record, inner.toValue.OccursIn value → Obtainable inner)
      (made : ofValue catalog schema value = .ok record) : Obtainable record
  | decoded {catalog : Catalog} {bytes rest : List UInt8} {record : Record}
      (accepted : (read catalog).run bytes = .ok (record, rest)) : Obtainable record
  | part {outer inner : Record} (obtained : Obtainable outer)
      (occurs : inner.toValue.OccursIn outer.toValue) : Obtainable inner

/-- One value for each field. -/
def IsFull (record : Record) : Prop :=
  record.values.length = record.schema.fields.length

/-- Each value that stands in a field is null or of the kind of the field. -/
def SlotsHold (record : Record) : Prop :=
  ∀ slot ∈ record.schema.fields.zip record.values, slot.1.Holds slot.2

theorem isKinded_iff {record : Record} : record.IsKinded ↔ record.IsFull ∧ record.SlotsHold := by
  rw [IsKinded, List.forall₂_iff_zip, eq_comm, IsFull, SlotsHold]
  simp

variable {catalog : Catalog} {schema : Schema} {value : Value} {record : Record}

/-- A record of full records, however deep. -/
def FullThroughout (record : Record) : Prop :=
  record.toValue.Throughout (Value.OnRecord IsFull)

theorem fullThroughout_iff : record.FullThroughout ↔
    record.IsFull ∧ ∀ slot ∈ record.values, slot.Throughout (Value.OnRecord IsFull) :=
  Value.throughout_iff

theorem fullThroughout_empty (schema : Schema) : (empty schema).FullThroughout := by
  refine fullThroughout_iff.mpr ⟨List.length_map _, fun slot member => ?_⟩
  obtain ⟨field, _, rfl⟩ := List.mem_map.mp member
  exact Value.throughout_null

/-- A call on a builder keeps its record full. -/
theorem fullThroughout_after {builder : RecordBuilder} {call : RecordBuilder.Call}
    (full : builder.build.FullThroughout)
    (given : ∀ value ∈ call.values, value.Throughout (Value.OnRecord IsFull)) :
    (builder.after call).build.FullThroughout := by
  rcases builder.after_cases call with same | emptied | ⟨index, value, member, filled⟩
  · rwa [same]
  · rw [emptied]
    exact fullThroughout_empty builder.schema
  · rw [filled]
    obtain ⟨own, slots⟩ := fullThroughout_iff.mp full
    refine fullThroughout_iff.mpr ⟨(List.length_set ..).trans own, fun slot inside => ?_⟩
    rcases List.mem_or_eq_of_mem_set inside with before | same
    · exact slots slot before
    · exact same ▸ given value member

theorem fullThroughout_calls {calls : List RecordBuilder.Call} {builder : RecordBuilder}
    (full : builder.build.FullThroughout)
    (given : ∀ call ∈ calls, ∀ value ∈ call.values, value.Throughout (Value.OnRecord IsFull)) :
    (calls.foldl RecordBuilder.after builder).build.FullThroughout := by
  induction calls generalizing builder with
  | nil => exact full
  | cons call calls ih =>
    rw [List.forall_mem_cons] at given
    exact ih (fullThroughout_after full given.1) given.2

theorem fullThroughout_ofValue (full : value.Throughout (Value.OnRecord IsFull))
    (made : ofValue catalog schema value = .ok record) : record.FullThroughout := by
  induction value using Value.componentInduction generalizing schema record with
  | step value ih =>
    rcases ofValue_cases made with same | ⟨complete, slots⟩
    · rwa [FullThroughout, ← same]
    · refine fullThroughout_iff.mpr ⟨complete, fun slot member => ?_⟩
      cases slots slot member with
      | null => exact Value.throughout_null
      | nested part nestedMade => exact ih _ part (full.part part) nestedMade
      | scalar held scalar => exact Value.throughout_of_mem_fieldKinds held scalar

theorem Obtainable.fullThroughout (obtained : record.Obtainable) : record.FullThroughout := by
  induction obtained with
  | empty schema => exact fullThroughout_empty schema
  | built schema calls _ ih =>
    refine fullThroughout_calls (fullThroughout_empty schema) fun call member value handed => ?_
    exact Value.throughout_onRecord_iff.mpr fun inner occurs =>
      (ih call member value handed inner occurs).self
  | converted _ made ih =>
    exact fullThroughout_ofValue
      (Value.throughout_onRecord_iff.mpr fun inner occurs => (ih inner occurs).self) made
  | decoded accepted =>
    obtain ⟨_, _, _, spelled⟩ := spelled_of_read accepted
    exact spelled.onRecords fun _ _ _ _ kinded => kinded.length_eq.symm
  | part _ occurs ih => exact ih.within occurs

end Record

namespace Value

/-- Records have values of the kinds of their fields, and texts are not too long. -/
structure IsWritable (value : Value) : Prop where
  kinded : value.Throughout (OnRecord Record.IsKinded)
  fits : value.Throughout fun part => ¬ part.IsLongText

variable {value : Value} {fields : List SchemaField} {values : List Value} {kind : FieldKind}
  {bytes payload : List UInt8}

theorem tagged_eq_ok {encoded : Except Fault (List UInt8)}
    (written : tagged value encoded = .ok bytes) :
    value = .null ∧ bytes = [0] ∨ ∃ content, encoded = .ok content ∧ bytes = 1 :: content := by
  rw [tagged] at written
  split at written
  · next null =>
    cases written
    cases value with
    | null => exact .inl ⟨rfl, rfl⟩
    | _ => cases null
  · obtain ⟨content, encoded, rfl⟩ := Except.map_eq_ok_iff.mp written
    exact .inr ⟨content, encoded, rfl⟩

theorem encodeSlots_cons_eq_ok {field : SchemaField}
    (encoded : encodeSlots (field :: fields) (value :: values) = .ok bytes) :
    ∃ front back, tagged value (encodeAs field.kind value) = .ok front ∧
      encodeSlots fields values = .ok back ∧ bytes = front ++ back := by
  rw [encodeSlots] at encoded
  obtain ⟨front, back, first, others, same⟩ := Except.both_eq_ok_iff.mp encoded
  exact ⟨front, back, first, others, same.symm⟩

theorem encodeAs_record_eq_ok {schema : Schema}
    (encoded : encodeAs kind (record schema values) = .ok payload) :
    ∃ slots, encodeSlots schema.fields values = .ok slots ∧ payload.length = 4 + slots.length := by
  cases List.mem_singleton.mp (mem_fieldKinds_of_encodeAs encoded)
  rw [encodeAs] at encoded
  obtain ⟨_, slots, fingerprint, others, rfl⟩ := Except.both_eq_ok_iff.mp encoded
  cases fingerprint
  exact ⟨slots, others, by rw [List.length_append, length_littleEndian]⟩

theorem isWritable_null : null.IsWritable :=
  ⟨throughout_null, (throughout_iff_self rfl).mpr id⟩

/-- The slots that were written are writable, each in its field. -/
theorem isWritable_slots (complete : values.length = fields.length)
    (parts : ∀ value ∈ values, ∀ kind payload, encodeAs kind value = .ok payload →
      value.IsWritable)
    (encoded : encodeSlots fields values = .ok bytes) :
    List.Forall₂ SchemaField.Holds fields values ∧ ∀ value ∈ values, value.IsWritable := by
  induction values generalizing fields bytes with
  | nil =>
    cases List.eq_nil_of_length_eq_zero complete.symm
    exact ⟨.nil, List.forall_mem_nil _⟩
  | cons value values ih =>
    cases fields with
    | nil => cases complete
    | cons field fields =>
      rw [List.forall_mem_cons] at parts
      obtain ⟨front, back, first, others, rfl⟩ := encodeSlots_cons_eq_ok encoded
      obtain ⟨hold, writable⟩ := ih (Nat.succ.inj complete) parts.2 others
      rcases tagged_eq_ok first with ⟨rfl, _⟩ | ⟨content, written, _⟩
      · exact ⟨.cons (.inl rfl) hold, List.forall_mem_cons.mpr ⟨isWritable_null, writable⟩⟩
      · exact ⟨.cons (.inr (mem_fieldKinds_of_encodeAs written)) hold,
          List.forall_mem_cons.mpr ⟨parts.1 _ _ written, writable⟩⟩

theorem not_isLongText_of_encodeAs (encoded : encodeAs kind value = .ok payload) :
    ¬ value.IsLongText := by
  cases value with
  | varchar text =>
    cases List.mem_singleton.mp (mem_fieldKinds_of_encodeAs encoded)
    intro long
    have failed : encodeAs .string (varchar text) = .error .textTooLong :=
      if_neg (Nat.not_lt.mpr long)
    rw [failed] at encoded
    cases encoded
  | _ => exact id

/-- A value that was written is writable, if its records are full. -/
theorem isWritable_of_encodeAs (full : value.Throughout (OnRecord Record.IsFull))
    (encoded : encodeAs kind value = .ok payload) : value.IsWritable := by
  induction value using componentInduction generalizing kind payload with
  | step value ih =>
    have held := mem_fieldKinds_of_encodeAs encoded
    by_cases composite : kind = .compact
    · subst composite
      obtain ⟨schema, values, rfl⟩ := exists_record held
      obtain ⟨slots, written, _⟩ := encodeAs_record_eq_ok encoded
      obtain ⟨hold, writable⟩ := isWritable_slots full.self
        (fun part member _ _ => ih part member (full.part member)) written
      exact ⟨throughout_iff.mpr ⟨hold, fun part member => (writable part member).kinded⟩,
        throughout_iff.mpr ⟨id, fun part member => (writable part member).fits⟩⟩
    · have single := components_of_mem_fieldKinds held composite
      exact ⟨throughout_of_mem_fieldKinds held composite,
        (throughout_iff_self single).mpr (not_isLongText_of_encodeAs encoded)⟩

theorem length_of_encodeSlots (complete : values.length = fields.length)
    (parts : ∀ value ∈ values, ∀ kind payload, encodeAs kind value = .ok payload →
      payload.length = value.payloadSize)
    (encoded : encodeSlots fields values = .ok bytes) : bytes.length = slotsSize values := by
  induction values generalizing fields bytes with
  | nil =>
    cases encoded
    rfl
  | cons value values ih =>
    cases fields with
    | nil => cases complete
    | cons field fields =>
      rw [List.forall_mem_cons] at parts
      obtain ⟨front, back, first, others, rfl⟩ := encodeSlots_cons_eq_ok encoded
      have behind := ih (Nat.succ.inj complete) parts.2 others
      have here : front.length = 1 + value.payloadSize := by
        rcases tagged_eq_ok first with ⟨rfl, rfl⟩ | ⟨content, written, rfl⟩
        · rfl
        · rw [List.length_cons, parts.1 _ _ written, Nat.add_comm]
      rw [List.length_append, here, behind, slotsSize]

/-- A value that was written takes as many bytes as it is told to, if its records are full. -/
theorem length_eq_payloadSize (full : value.Throughout (OnRecord Record.IsFull))
    (encoded : encodeAs kind value = .ok payload) : payload.length = value.payloadSize := by
  induction value using componentInduction generalizing kind payload with
  | step value ih =>
    by_cases composite : kind = .compact
    · subst composite
      obtain ⟨schema, values, rfl⟩ := exists_record (mem_fieldKinds_of_encodeAs encoded)
      obtain ⟨slots, written, length⟩ := encodeAs_record_eq_ok encoded
      have behind := length_of_encodeSlots full.self
        (fun part member _ _ => ih part member (full.part member)) written
      rw [length, behind, payloadSize]
    · exact FieldKind.length_of_encodeAs composite encoded

end Value

namespace Record

theorem wellKinded_iff {record : Record} (full : record.FullThroughout) :
    record.WellKinded ↔ record.toValue.Throughout (Value.OnRecord SlotsHold) := by
  rw [WellKinded, Value.throughout_onRecord_iff, Value.throughout_onRecord_iff]
  refine forall₂_congr fun inner occurs => ?_
  rw [isKinded_iff]
  exact and_iff_right (full.within occurs).self

/-- Whatever a record was obtained from, it has bytes exactly if all values in it, at every depth,
are null or of the kinds of their fields, and no text is too long. They are as many as its size. -/
theorem toBytes_of_obtainable (record : Record) (obtained : record.Obtainable) :
    ((∃ bytes, record.toBytes = .ok bytes) ↔
      record.toValue.Throughout (Value.OnRecord SlotsHold) ∧ record.TextsFit) ∧
    ∀ bytes, record.toBytes = .ok bytes → bytes.length = record.size := by
  have full := obtained.fullThroughout
  rw [← wellKinded_iff full]
  refine ⟨⟨?_, ?_⟩, fun bytes written => ?_⟩
  · rintro ⟨bytes, written⟩
    obtain ⟨kinded, fits⟩ := Value.isWritable_of_encodeAs full (toBytes_eq_ok_iff.mp written)
    exact ⟨kinded, fits⟩
  · rintro ⟨kinded, fits⟩
    obtain ⟨bytes, encoded⟩ := exists_encode kinded fits
    exact ⟨bytes, toBytes_eq_ok_iff.mpr encoded⟩
  · exact Value.length_eq_payloadSize full (toBytes_eq_ok_iff.mp written)

section Boxes

def boxSchema : Schema :=
  .ofFields "Box" [.scalar "label" .string, .composite "content" "Box"]

/-- Puts a box into a labelled one. No box has a size. -/
def boxCalls : List RecordBuilder.Call :=
  [.setNamed "label" (.varchar "tea"), .setNamed "size" (.int 3), .set 1 (empty boxSchema).toValue]

/-- Labels a box with a number. -/
def numberCalls : List RecordBuilder.Call :=
  [.reset, .set 0 (.int 3)]

def box (calls : List RecordBuilder.Call) : Record :=
  (calls.foldl RecordBuilder.after (.new boxSchema)).build

private theorem obtainable_box : (box boxCalls).Obtainable ∧ (box numberCalls).Obtainable := by
  have text : (Value.varchar "tea").Throughout (Value.OnRecord Obtainable) :=
    Value.throughout_of_mem_fieldKinds (List.mem_singleton.mpr rfl) (by decide)
  have number : (Value.int 3).Throughout (Value.OnRecord Obtainable) :=
    Value.throughout_of_mem_fieldKinds (List.mem_cons_self ..) (by decide)
  have inner : (empty boxSchema).toValue.Throughout (Value.OnRecord Obtainable) :=
    Value.throughout_onRecord_iff.mpr fun _ => .part (.empty boxSchema)
  constructor
  · refine .built boxSchema boxCalls fun call member value handed => ?_
    refine Value.throughout_onRecord_iff.mp ?_
    revert call value
    simpa [boxCalls, RecordBuilder.Call.values] using ⟨text, number, inner⟩
  · refine .built boxSchema numberCalls fun call member value handed => ?_
    refine Value.throughout_onRecord_iff.mp ?_
    revert call value
    simpa [numberCalls, RecordBuilder.Call.values] using number

theorem toBytes_boxes :
    (box boxCalls).Obtainable ∧
    (∃ bytes, (box boxCalls).toBytes = .ok bytes ∧ bytes.length = 19) ∧
    (box numberCalls).Obtainable ∧ ¬ ∃ bytes, (box numberCalls).toBytes = .ok bytes := by
  obtain ⟨boxed, numbered⟩ := obtainable_box
  have size := (toBytes_of_obtainable (box boxCalls) boxed).2 _ rfl
  refine ⟨boxed, ⟨_, rfl, size⟩, numbered, fun written => ?_⟩
  have hold := ((toBytes_of_obtainable (box numberCalls) numbered).1.mp written).1.self
  have label : (SchemaField.scalar "label" .string).Holds (.int 3) :=
    hold (.scalar "label" .string, .int 3) (List.mem_cons_self ..)
  simp [SchemaField.Holds, SchemaField.scalar, Value.fieldKinds] at label

end Boxes

end Record

end RowProjection
