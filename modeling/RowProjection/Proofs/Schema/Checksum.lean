import Mathlib.Data.List.Basic
import RowProjection.Schema.Basic

/-! What the checksum of a schema tells apart. Each step of it is injective in the register and in
the byte, so that two texts of one length that differ in one byte have different checksums, however
long they are. The kind of a field is one byte. -/

namespace RowProjection

namespace Fingerprint

variable {left right : UInt32}

theorem toNat_half (register : UInt32) : (register >>> 1).toNat = register.toNat / 2 := by
  rw [UInt32.toNat_shiftRight]
  rfl

theorem isOdd_iff (register : UInt32) : register &&& 1 = 1 ↔ register.toNat % 2 = 1 := by
  rw [← UInt32.toNat_inj, UInt32.toNat_and]
  exact Eq.congr_left (Nat.and_one_is_mod _)

/-- The polynomial has its highest bit set, which no halved register has. -/
theorem half_xor_ne (left right : UInt32) :
    (left >>> 1) ^^^ (0xEDB88320 : UInt32) ≠ right >>> 1 := by
  intro same
  have both : (left >>> 1) ^^^ (right >>> 1) = (0xEDB88320 : UInt32) := by
    rw [← same, ← UInt32.xor_assoc, UInt32.xor_self, UInt32.zero_xor]
  have small (register : UInt32) : (register >>> 1).toNat < 2 ^ 31 := by
    have bound := register.toNat_lt
    rw [toNat_half]
    omega
  have low := Nat.xor_lt_two_pow (small left) (small right)
  rw [← UInt32.toNat_xor, both] at low
  exact absurd low (by decide)

/-- The bit that is shifted out is told from what is left: with it the highest bit is set. -/
theorem shift_injective : Function.Injective shift := by
  have whole {left right : UInt32} (halves : left >>> 1 = right >>> 1)
      (lasts : left.toNat % 2 = right.toNat % 2) : left = right := by
    have halves := congrArg UInt32.toNat halves
    rw [toNat_half, toNat_half] at halves
    exact UInt32.toNat_inj.mp (by omega)
  intro left right same
  simp only [shift, isOdd_iff] at same
  split at same
  · next leftOdd =>
    split at same
    · next rightOdd =>
      exact whole ((UInt32.xor_left_inj _).mp same) (leftOdd.trans rightOdd.symm)
    · exact absurd same (half_xor_ne left right)
  · next leftEven =>
    split at same
    · exact absurd same.symm (half_xor_ne right left)
    · exact whole same (by omega)

theorem step_register_injective (byte : UInt8) : Function.Injective (step · byte) := by
  intro left right same
  simp only [step] at same
  iterate 8 replace same := shift_injective same
  exact (UInt32.xor_left_inj _).mp same

theorem step_byte_injective (register : UInt32) : Function.Injective (step register) := by
  intro left right same
  simp only [step] at same
  iterate 8 replace same := shift_injective same
  have same := congrArg UInt32.toNat ((UInt32.xor_right_inj _).mp same)
  rw [UInt8.toNat_toUInt32, UInt8.toNat_toUInt32] at same
  exact UInt8.toNat_inj.mp same

/-- Registers that differ still do behind the same bytes. -/
theorem foldl_step_injective (bytes : List UInt8) :
    Function.Injective fun register => bytes.foldl step register := by
  induction bytes with
  | nil => exact Function.injective_id
  | cons byte bytes ih => exact ih.comp (step_register_injective byte)

theorem ofBytes_ne_of_changed_byte {byte other : UInt8} (changed : byte ≠ other)
    (front back : List UInt8) :
    ofBytes (front ++ byte :: back) ≠ ofBytes (front ++ other :: back) := by
  intro same
  rw [ofBytes, ofBytes, UInt32.xor_left_inj, List.foldl_append, List.foldl_append] at same
  exact changed (step_byte_injective _ (foldl_step_injective back same))

end Fingerprint

namespace Schema

variable {left right : List SchemaField}

/-- The tag of a kind stands between what comes before it and what follows, of which neither depends
on it. -/
theorem layout_around_tag (name : String) (front back : List SchemaField) (field : SchemaField) :
    layout name (front ++ field :: back) =
      (Text.Utf8.bytes name ++ front.flatMap SchemaField.layout ++
          0 :: Text.Utf8.bytes field.name) ++
        field.kind.tag ::
          ((field.reference.map Text.Utf8.bytes).getD [] ++ back.flatMap SchemaField.layout) := by
  simp [layout, SchemaField.layout]

/-- A field is made of its name, its kind and its reference. -/
theorem field_eq_of_parts {index : Nat} (sameNames : left.map (·.name) = right.map (·.name))
    (sameReferences : left.map (·.reference) = right.map (·.reference))
    (sameKind : (left.map (·.kind))[index]? = (right.map (·.kind))[index]?) :
    left[index]? = right[index]? := by
  have sameName := congrArg (·[index]?) sameNames
  have sameReference := congrArg (·[index]?) sameReferences
  simp only [List.getElem?_map] at sameName sameReference sameKind
  cases first : left[index]? with
  | none =>
    rw [first] at sameName
    exact (Option.map_eq_none_iff.mp sameName.symm).symm
  | some field =>
    cases second : right[index]? with
    | none => simp [first, second] at sameName
    | some other =>
      obtain ⟨_, _, _⟩ := field
      obtain ⟨_, _, _⟩ := other
      simp_all

/-- Lists with the same names and references that differ in one kind only are the same in front of
its field and behind it. -/
theorem exists_split_of_changed_kind (sameNames : left.map (·.name) = right.map (·.name))
    (sameReferences : left.map (·.reference) = right.map (·.reference)) {index : Nat}
    (changed : (left.map (·.kind))[index]? ≠ (right.map (·.kind))[index]?)
    (elsewhere : ∀ other, other ≠ index →
      (left.map (·.kind))[other]? = (right.map (·.kind))[other]?) :
    ∃ front field kind back, left = front ++ field :: back ∧
      right = front ++ { field with kind := kind } :: back ∧ field.kind ≠ kind := by
  have sameLength : left.length = right.length := by simpa using congrArg List.length sameNames
  have inside : index < left.length := by
    by_contra outside
    exact changed (by simp [Nat.le_of_not_lt outside, ← sameLength])
  have fieldAt := List.getElem?_eq_getElem inside
  have otherAt := List.getElem?_eq_getElem (sameLength ▸ inside)
  generalize left[index] = field at fieldAt
  generalize right[index] = other at otherAt
  have sameName : field.name = other.name := by
    simpa [fieldAt, otherAt] using congrArg (·[index]?) sameNames
  have sameReference : field.reference = other.reference := by
    simpa [fieldAt, otherAt] using congrArg (·[index]?) sameReferences
  have same : right = left.set index { field with kind := other.kind } := by
    apply List.ext_getElem?
    intro place
    by_cases here : place = index
    · subst here
      rw [List.getElem?_set_self inside, otherAt, sameName, sameReference]
    · rw [List.getElem?_set_ne (Ne.symm here)]
      exact (field_eq_of_parts sameNames sameReferences (elsewhere place here)).symm
  refine ⟨left.take index, field, other.kind, left.drop (index + 1), ?_, ?_, ?_⟩
  · obtain ⟨_, rfl⟩ := List.getElem?_eq_some_iff.mp fieldAt
    rw [List.getElem_cons_drop, List.take_append_drop]
  · rw [same, List.set_eq_take_append_cons_drop, if_pos inside]
  · intro same
    exact changed (by simp [fieldAt, otherAt, same])

/-- Schemas that differ in the kind of one field only have different fingerprints. -/
theorem fingerprint_of_changed_kind (left right : Schema) (sameName : left.name = right.name)
    (sameNames : left.fields.map (·.name) = right.fields.map (·.name))
    (sameReferences : left.fields.map (·.reference) = right.fields.map (·.reference)) (index : Nat)
    (changed : (left.fields.map (·.kind))[index]? ≠ (right.fields.map (·.kind))[index]?)
    (elsewhere : ∀ other, other ≠ index →
      (left.fields.map (·.kind))[other]? = (right.fields.map (·.kind))[other]?) :
    (ofFields left.name left.fields).fingerprint ≠
      (ofFields right.name right.fields).fingerprint := by
  obtain ⟨front, field, kind, back, leftSplit, rightSplit, other⟩ :=
    exists_split_of_changed_kind sameNames sameReferences changed elsewhere
  simp only [ofFields, leftSplit, rightSplit, sameName, layout_around_tag]
  exact Fingerprint.ofBytes_ne_of_changed_byte (mt FieldKind.tag_injective other) _ _

section Orders

/-- An order whose amount is of some kind. -/
def orderSchema (amount : FieldKind) : Schema :=
  .ofFields "Order"
    [.composite "buyer" "Person", .scalar "amount" amount, .scalar "note" .string]

theorem fingerprint_of_changed_amount :
    (orderSchema .int32).fingerprint ≠ (orderSchema .nullableInt32).fingerprint := by
  have elsewhere (other : Nat) (apart : other ≠ 1) :
      ((orderSchema .int32).fields.map (·.kind))[other]? =
        ((orderSchema .nullableInt32).fields.map (·.kind))[other]? := by
    rcases other with _ | _ | other
    · rfl
    · exact absurd rfl apart
    · rfl
  exact fingerprint_of_changed_kind (orderSchema .int32) (orderSchema .nullableInt32) rfl rfl rfl 1
    (by decide) elsewhere

end Orders

end Schema

end RowProjection
