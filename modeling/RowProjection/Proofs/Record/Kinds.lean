import Mathlib.Algebra.Ring.Nat
import Mathlib.Data.List.Forall2
import Mathlib.Tactic.ByContra
import RowProjection.Proofs.Value.Components
import RowProjection.Record.Codec

namespace RowProjection

open Wire

namespace Value

/-- The kinds of the fields that hold values like this one. -/
def fieldKinds : Value → List FieldKind
  | varchar _ => [.string]
  | boolean _ => [.nullableBoolean, .boolean]
  | tinyInt _ => [.nullableInt8, .int8]
  | smallInt _ => [.nullableInt16, .int16]
  | int _ => [.nullableInt32, .int32]
  | bigInt _ => [.nullableInt64, .int64]
  | real _ => [.nullableFloat32, .float32]
  | double _ => [.nullableFloat64, .float64]
  | decimal _ => [.decimal]
  | date _ => [.date]
  | time _ => [.time]
  | timestamp _ => [.timestamp]
  | timestampTz _ => [.timestampWithTimezone]
  | record _ _ => [.compact]
  | null | json _ | map _ | row _ | object _ _ | bytes _ => []

theorem exists_record {value : Value} (held : .compact ∈ value.fieldKinds) :
    ∃ schema values, value = .record schema values := by
  cases value with
  | record schema values => exact ⟨schema, values, rfl⟩
  | _ => simp [fieldKinds] at held

/-- Only records have parts, of the values that fields hold. -/
theorem components_of_mem_fieldKinds {value : Value} {kind : FieldKind}
    (held : kind ∈ value.fieldKinds) (scalar : kind ≠ .compact) : value.components = [] := by
  cases value with
  | record schema values => exact absurd (List.mem_singleton.mp held) scalar
  | map | row | object => cases held
  | _ => rfl

theorem onRecord_of_mem_fieldKinds {holds : Record → Prop} {value : Value} {kind : FieldKind}
    (held : kind ∈ value.fieldKinds) (scalar : kind ≠ .compact) : value.OnRecord holds := by
  cases value with
  | record => exact absurd (List.mem_singleton.mp held) scalar
  | _ => trivial

/-- There are no records in the values that scalar fields hold. -/
theorem throughout_of_mem_fieldKinds {holds : Record → Prop} {value : Value} {kind : FieldKind}
    (held : kind ∈ value.fieldKinds) (scalar : kind ≠ .compact) :
    value.Throughout (OnRecord holds) :=
  (throughout_iff_self (components_of_mem_fieldKinds held scalar)).mpr
    (onRecord_of_mem_fieldKinds held scalar)

theorem throughout_null {holds : Record → Prop} : null.Throughout (OnRecord holds) :=
  (throughout_iff_self rfl).mpr trivial

/-- A text whose length in bytes does not fit 32 bits. -/
def IsLongText : Value → Prop
  | varchar text => 2 ^ 32 ≤ (Text.Utf8.bytes text).length
  | _ => False

end Value

/-- A field holds null and the values of its kind. -/
def SchemaField.Holds (field : SchemaField) (value : Value) : Prop :=
  value = .null ∨ field.kind ∈ value.fieldKinds

namespace Record

/-- One value for each field, of a kind that the field holds. -/
def IsKinded (record : Record) : Prop :=
  List.Forall₂ SchemaField.Holds record.schema.fields record.values

/-- The record and all records within it have values of the kinds of their fields. -/
def WellKinded (record : Record) : Prop :=
  record.toValue.Throughout (Value.OnRecord IsKinded)

/-- No text within the record is too long to be written. -/
def TextsFit (record : Record) : Prop :=
  record.toValue.Throughout fun value => ¬ value.IsLongText

end Record

namespace Value

/-- A value is written in a field of a kind, or it fails to be for a text within it. -/
def EncodesOrIsLong (kind : FieldKind) (value : Value) : Prop :=
  (∃ bytes, encodeAs kind value = .ok bytes) ∨
    encodeAs kind value = .error .textTooLong ∧
      ∃ text : Value, text.OccursIn value ∧ text.IsLongText

/-- No other kind of field takes the value. -/
theorem encodeAs_eq_wrongKind {kind : FieldKind} {value : Value} (other : kind ∉ value.fieldKinds) :
    encodeAs kind value = .error (.wrongKind value.kindName kind) := by
  unfold encodeAs
  split
  case h_22 => rfl
  all_goals exact absurd (by simp [fieldKinds]) other

theorem mem_fieldKinds_of_encodeAs {kind : FieldKind} {value : Value} {payload : List UInt8}
    (encoded : encodeAs kind value = .ok payload) : kind ∈ value.fieldKinds := by
  by_contra other
  rw [encodeAs_eq_wrongKind other] at encoded
  cases encoded

theorem isNull_of_mem_fieldKinds {kind : FieldKind} {value : Value}
    (held : kind ∈ value.fieldKinds) : value.isNull = false := by
  cases value with
  | null => cases held
  | _ => rfl

private theorem tagged_cases {field : SchemaField} {value : Value} (held : field.Holds value)
    (slot : ∀ kind ∈ value.fieldKinds, EncodesOrIsLong kind value) :
    (∃ bytes, tagged value (encodeAs field.kind value) = .ok bytes) ∨
      tagged value (encodeAs field.kind value) = .error .textTooLong ∧
        ∃ text : Value, text.OccursIn value ∧ text.IsLongText := by
  rcases held with null | held
  · subst null
    exact .inl ⟨[0], rfl⟩
  · have present := isNull_of_mem_fieldKinds held
    rcases slot field.kind held with ⟨bytes, encoded⟩ | ⟨failed, long⟩
    · exact .inl ⟨1 :: bytes, by simp [tagged, present, encoded, Except.map]⟩
    · exact .inr ⟨by simp [tagged, present, failed, Except.map], long⟩

/-- The slots of a record are written one after another, up to the first text that is too long. -/
private theorem encodeSlots_cases {fields : List SchemaField} {values : List Value}
    (kinded : List.Forall₂ SchemaField.Holds fields values)
    (slots : ∀ value ∈ values, ∀ kind ∈ value.fieldKinds, EncodesOrIsLong kind value) :
    (∃ bytes, encodeSlots fields values = .ok bytes) ∨
      encodeSlots fields values = .error .textTooLong ∧
        ∃ value ∈ values, ∃ text : Value, text.OccursIn value ∧ text.IsLongText := by
  induction kinded with
  | nil => exact .inl ⟨[], rfl⟩
  | @cons field value fields values held _ ih =>
    have rest := ih fun other member => slots other (List.mem_cons_of_mem _ member)
    simp only [encodeSlots]
    rcases tagged_cases held (slots value (List.mem_cons_self ..)) with
      ⟨front, first⟩ | ⟨failed, long⟩
    · rcases rest with ⟨back, second⟩ | ⟨failed, other, member, long⟩
      · exact .inl ⟨front ++ back, by rw [first, second]; rfl⟩
      · exact .inr ⟨by rw [first, failed]; rfl, other, List.mem_cons_of_mem _ member, long⟩
    · exact .inr ⟨by rw [failed]; rfl, value, List.mem_cons_self .., long⟩

theorem encodesOrIsLong {value : Value} (kinded : value.Throughout (OnRecord Record.IsKinded)) :
    ∀ kind ∈ value.fieldKinds, EncodesOrIsLong kind value := by
  induction value using componentInduction with
  | step value ih =>
    intro kind held
    cases value with
    | varchar text =>
      cases List.mem_singleton.mp held
      by_cases long : 2 ^ 32 ≤ (Text.Utf8.bytes text).length
      · exact .inr ⟨if_neg (Nat.not_lt.mpr long), _, .self, long⟩
      · exact .inl ⟨_, if_pos (Nat.not_le.mp long)⟩
    | record schema values =>
      cases List.mem_singleton.mp held
      have slots := encodeSlots_cases kinded.self fun value member =>
        ih value member (kinded.part member)
      rcases slots with ⟨bytes, encoded⟩ | ⟨failed, other, member, text, occurs, long⟩
      · exact .inl ⟨littleEndian 4 schema.fingerprint.toNat ++ bytes, by
          rw [encodeAs, encoded]; rfl⟩
      · exact .inr ⟨by rw [encodeAs, failed]; rfl, text, .part member occurs, long⟩
    | null | json | map | row | object | bytes => cases held
    | boolean | tinyInt | smallInt | int | bigInt | real | double =>
      rcases List.mem_pair.mp held with rfl | rfl <;> exact .inl ⟨_, rfl⟩
    | decimal | date | time | timestamp | timestampTz =>
      cases List.mem_singleton.mp held
      exact .inl ⟨_, rfl⟩

end Value

namespace Record

theorem toBytes_eq_ok_iff {record : Record} {bytes : List UInt8} :
    record.toBytes = .ok bytes ↔ record.encode = .ok bytes := by
  rw [toBytes]
  cases record.encode <;> simp [Except.mapError]

/-- A record of the right kinds fails to be written only for a text that is too long. -/
theorem encode_cases {record : Record} (kinded : record.WellKinded) :
    (∃ bytes, record.encode = .ok bytes) ∨
      record.encode = .error .textTooLong ∧
        ∃ text : Value, text.OccursIn record.toValue ∧ text.IsLongText :=
  Value.encodesOrIsLong kinded .compact (List.mem_singleton.mpr rfl)

theorem exists_encode {record : Record} (kinded : record.WellKinded) (fit : record.TextsFit) :
    ∃ bytes, record.encode = .ok bytes := by
  rcases encode_cases kinded with encoded | ⟨_, text, occurs, long⟩
  · exact encoded
  · exact absurd long (fit text occurs)

end Record

end RowProjection
