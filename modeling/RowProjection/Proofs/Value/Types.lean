import RowProjection.Proofs.Value.Integers

namespace RowProjection.Value

variable {value converted : Value} {type : DataType}

/-- The type of columns of such values, where it is not declared by users. -/
def ownType? : Value → Option DataType
  | boolean _ => some .boolean
  | tinyInt _ => some .tinyInt
  | smallInt _ => some .smallInt
  | int _ => some .int
  | bigInt _ => some .bigInt
  | decimal _ => some .decimal
  | real _ => some .real
  | double _ => some .double
  | varchar _ => some .varchar
  | date _ => some .date
  | time _ => some .time
  | timestamp _ => some .timestamp
  | timestampTz _ => some .timestampTz
  | json _ => some .json
  | null | map _ | row _ | record _ _ | object _ _ | bytes _ => none

/-- Rows, records and objects. -/
def HasFields : Value → Prop
  | row _ | record _ _ | object _ _ => True
  | _ => False

/-- The values of a type, other than null. Columns of objects hold all values, and columns of a
declared type all that have fields. -/
inductive HasType : Value → DataType → Prop where
  | own {value : Value} {type : DataType} (same : value.ownType? = some type) : HasType value type
  | object {value : Value} (present : value ≠ .null) : HasType value .object
  | custom {value : Value} (type : CustomType) (fields : value.HasFields) :
      HasType value (.custom type)

theorem HasType.present (typed : value.HasType type) : value ≠ .null := by
  rintro rfl
  cases typed with
  | own same => cases same
  | object present => exact present rfl
  | custom _ fields => exact fields

theorem asCustom?_eq_some (formed : value.asCustom? = some converted) :
    converted = value ∧ value.HasFields := by
  cases value with
  | row | record | object =>
    cases formed
    exact ⟨rfl, trivial⟩
  | _ => cases formed

/-- The form of a value in a type is of that type. -/
theorem hasType_of_formIn? (present : value ≠ .null)
    (formed : value.formIn? type = .ok (some converted)) : converted.HasType type := by
  cases type with
  | varchar =>
    cases formed
    exact .own rfl
  | object =>
    cases formed
    exact .object present
  | null => cases formed
  | custom type =>
    obtain ⟨rfl, fields⟩ := asCustom?_eq_some (Except.ok.inj formed)
    exact .custom type fields
  | date | timestamp =>
    obtain ⟨moment?, _, same⟩ := Except.map_eq_ok_iff.mp formed
    obtain ⟨moment, _, rfl⟩ := Option.map_eq_some_iff.mp same
    exact .own rfl
  | _ =>
    obtain ⟨content, _, rfl⟩ := Option.map_eq_some_iff.mp (Except.ok.inj formed)
    exact .own rfl

/-- A value is its own form. Only floats of 32 bits take the way over 64. -/
theorem formIn?_of_hasType (typed : value.HasType type) (other : type ≠ .real) :
    value.formIn? type = .ok (some value) := by
  cases typed with
  | own same =>
    cases value with
    | real => exact absurd (Option.some.inj same).symm other
    | null | map | row | record | object | bytes => cases same
    | tinyInt | smallInt | int | bigInt =>
      cases same
      exact (formIn?_integral_iff rfl).mpr ⟨_, rfl, rfl⟩
    | _ =>
      cases same
      rfl
  | object => rfl
  | custom type fields =>
    cases value with
    | row | record | object => rfl
    | _ => cases fields

theorem convertTo_of_hasType (typed : value.HasType type) (other : type ≠ .real) :
    value.convertTo type = .ok value :=
  (convertTo_eq_ok_iff typed.present).mpr (formIn?_of_hasType typed other)

/-- A conversion answers null for null, and else a value of its type; a value that is converted to
an object or to a declared type is taken over. What a conversion answers is its own conversion, and
so is every value of the type. -/
theorem convertTo_projection (value : Value) (type : DataType) :
    (∀ converted, value.convertTo type = .ok converted →
      (converted = .null ↔ value = .null) ∧ (value ≠ .null → converted.HasType type) ∧
      (type = .object ∨ (∃ declared, type = .custom declared) → converted = value) ∧
      (type ≠ .real → converted.convertTo type = .ok converted)) ∧
    (value.HasType type → type ≠ .real → value.convertTo type = .ok value) := by
  refine ⟨fun converted success => ?_, convertTo_of_hasType⟩
  by_cases null : value = .null
  · subst null
    cases success
    exact ⟨Iff.rfl, fun present => absurd rfl present, fun _ => rfl, fun _ => rfl⟩
  · have formed := (convertTo_eq_ok_iff null).mp success
    have typed := hasType_of_formIn? null formed
    refine ⟨iff_of_false typed.present null, fun _ => typed, ?_, convertTo_of_hasType typed⟩
    rintro (rfl | ⟨declared, rfl⟩)
    · exact (Option.some.inj (Except.ok.inj formed)).symm
    · exact (asCustom?_eq_some (Except.ok.inj formed)).1

/-- A text with blanks around a number, and the number that it is converted to. -/
theorem convertTo_paddedText :
    (varchar " 12 ").convertTo .smallInt = .ok (smallInt 12) ∧ (smallInt 12).HasType .smallInt ∧
      (smallInt 12).convertTo .smallInt = .ok (smallInt 12) := by
  have success : (varchar " 12 ").convertTo .smallInt = .ok (smallInt 12) := rfl
  obtain ⟨_, typed, _, again⟩ := (convertTo_projection (varchar " 12 ") .smallInt).1 _ success
  exact ⟨success, typed (by simp), again (by simp)⟩

end RowProjection.Value
