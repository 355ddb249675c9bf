import RowProjection.Proofs.Number.Truncation
import RowProjection.Proofs.Value.Conversion

namespace RowProjection

open Number

/-- The width of an integer type. -/
def DataType.integerBits? : DataType → Option Nat
  | .tinyInt => some 8
  | .smallInt => some 16
  | .int => some 32
  | .bigInt => some 64
  | _ => none

/-- Whether a number lies in the range of integers of a width, in two's complement. -/
def FitsBits (bits : Nat) (number : Int) : Prop :=
  -2 ^ (bits - 1) ≤ number ∧ number < 2 ^ (bits - 1)

theorem FitsBits.mono {bits wider : Nat} {number : Int} (fits : FitsBits bits number)
    (le : bits ≤ wider) : FitsBits wider number := by
  have powers : (2 : Int) ^ (bits - 1) ≤ 2 ^ (wider - 1) :=
    pow_le_pow_right₀ (by decide) (by omega)
  obtain ⟨least, greatest⟩ := fits
  constructor <;> omega

theorem DataType.integerBits?_le {type : DataType} {bits : Nat}
    (integral : type.integerBits? = some bits) : bits ≤ 64 := by
  cases type <;> cases integral <;> decide

namespace Value

variable {value converted : Value} {type : DataType} {bits : Nat} {number : Int}

/-- The type and the number of an integer. -/
def integer? : Value → Option (DataType × Int)
  | tinyInt word => some (.tinyInt, word.toInt)
  | smallInt word => some (.smallInt, word.toInt)
  | int word => some (.int, word.toInt)
  | bigInt word => some (.bigInt, word.toInt)
  | _ => none

/-- The number that an integer or a decimal stands for. -/
def quantity? : Value → Option ℚ
  | decimal number => some number.toRat
  | value => value.integer?.map fun (_, number) => (number : ℚ)

/-- The integers of a type are the numbers in its range. -/
theorem exists_integer_iff (integral : type.integerBits? = some bits) :
    (∃ value : Value, value.integer? = some (type, number)) ↔ FitsBits bits number := by
  constructor
  · rintro ⟨value, same⟩
    cases value with
    | tinyInt word | smallInt word | int word | bigInt word =>
      cases same
      cases integral
      exact ⟨word.le_toInt, word.toInt_lt⟩
    | _ => cases same
  · rintro ⟨least, greatest⟩
    cases type with
    | tinyInt =>
      cases integral
      exact ⟨tinyInt (.ofInt number), by simp [integer?, Int8.toInt_ofInt_of_le least greatest]⟩
    | smallInt =>
      cases integral
      exact ⟨smallInt (.ofInt number), by simp [integer?, Int16.toInt_ofInt_of_le least greatest]⟩
    | int =>
      cases integral
      exact ⟨int (.ofInt number), by simp [integer?, Int32.toInt_ofInt_of_le least greatest]⟩
    | bigInt =>
      cases integral
      exact ⟨bigInt (.ofInt number), by simp [integer?, Int64.toInt_ofInt_of_le least greatest]⟩
    | _ => cases integral

private theorem narrowed_iff {ω : Type} {toInt : ω → Int} {ofInt : Int → ω}
    {least greatest : Int} {number? : Option Int} {word : ω}
    (back : ∀ number, least ≤ number → number ≤ greatest → toInt (ofInt number) = number)
    (own : ofInt (toInt word) = word) (range : least ≤ toInt word ∧ toInt word ≤ greatest) :
    (number?.bind fun number =>
      if least ≤ number ∧ number ≤ greatest then some (ofInt number) else none) = some word ↔
        number? = some (toInt word) := by
  rw [Option.bind_eq_some_iff]
  constructor
  · rintro ⟨number, found, narrowed⟩
    split at narrowed
    · next fits =>
      cases narrowed
      rw [found, back number fits.1 fits.2]
    · cases narrowed
  · intro found
    exact ⟨toInt word, found, by rw [if_pos range, own]⟩

theorem toTinyInt?_eq_some_iff {word : Int8} :
    value.toTinyInt? = some word ↔ value.toInteger? = some word.toInt :=
  narrowed_iff
    (fun _ least greatest => Int8.toInt_ofInt_of_le least (Int.lt_add_one_of_le greatest))
    word.ofInt_toInt ⟨word.le_toInt, Int.le_of_lt_add_one word.toInt_lt⟩

theorem toSmallInt?_eq_some_iff {word : Int16} :
    value.toSmallInt? = some word ↔ value.toInteger? = some word.toInt :=
  narrowed_iff
    (fun _ least greatest => Int16.toInt_ofInt_of_le least (Int.lt_add_one_of_le greatest))
    word.ofInt_toInt ⟨word.le_toInt, Int.le_of_lt_add_one word.toInt_lt⟩

theorem toInt?_eq_some_iff {word : Int32} :
    value.toInt? = some word ↔ value.toInteger? = some word.toInt :=
  narrowed_iff
    (fun _ least greatest => Int32.toInt_ofInt_of_le least (Int.lt_add_one_of_le greatest))
    word.ofInt_toInt ⟨word.le_toInt, Int.le_of_lt_add_one word.toInt_lt⟩

theorem inInt64?_eq_some_iff {integer : Int} :
    inInt64? number = some integer ↔ integer = number ∧ FitsBits 64 integer := by
  have least : Int64.minValue.toInt = -2 ^ 63 := rfl
  have greatest : Int64.maxValue.toInt = 2 ^ 63 - 1 := rfl
  rw [inInt64?, least, greatest, FitsBits]
  split <;> simp <;> omega

/-- Whatever is converted to an integer, it is one of 64 bits. -/
theorem fitsBits_of_toInteger? (found : value.toInteger? = some number) : FitsBits 64 number := by
  have truncated (datum : FloatDatum) (cut : datum.truncated? = some number) :
      FitsBits 64 number := by
    cases datum with
    | nan | infinite => cases cut
    | finite negative mantissa exponent =>
      obtain ⟨rfl, fits⟩ := inInt64?_eq_some_iff.mp cut
      exact fits
  cases value with
  | tinyInt word | smallInt word | int word | bigInt word =>
    cases found
    have least := word.le_toInt
    have greatest := word.toInt_lt
    constructor <;> omega
  | decimal number =>
    obtain ⟨rfl, fits⟩ := inInt64?_eq_some_iff.mp found
    exact fits
  | real float | double float => exact truncated _ found
  | varchar text =>
    obtain ⟨read, _, checked⟩ := Option.bind_eq_some_iff.mp found
    obtain ⟨rfl, fits⟩ := inInt64?_eq_some_iff.mp checked
    exact fits
  | _ => cases found

theorem toBigInt?_eq_some_iff {word : Int64} :
    value.toBigInt? = some word ↔ value.toInteger? = some word.toInt := by
  rw [toBigInt?, Option.map_eq_some_iff]
  constructor
  · rintro ⟨number, found, rfl⟩
    obtain ⟨least, greatest⟩ := fitsBits_of_toInteger? found
    rw [found, Int64.toInt_ofInt_of_le least greatest]
  · intro found
    exact ⟨word.toInt, found, word.ofInt_toInt⟩

private theorem form_iff {ω : Type} {toValue : ω → Value} {toInt : ω → Int} {form? : Option ω}
    {number? : Option Int} (narrowed : ∀ word, form? = some word ↔ number? = some (toInt word))
    (shape : ∀ number, converted.integer? = some (type, number) ↔
      ∃ word, toValue word = converted ∧ toInt word = number) :
    (Except.ok (form?.map toValue) : Except Failure (Option Value)) = .ok (some converted) ↔
      ∃ number, number? = some number ∧ converted.integer? = some (type, number) := by
  rw [Except.ok.injEq, Option.map_eq_some_iff]
  constructor
  · rintro ⟨word, formed, same⟩
    exact ⟨toInt word, (narrowed word).mp formed, (shape _).mpr ⟨word, same, rfl⟩⟩
  · rintro ⟨number, found, typed⟩
    obtain ⟨word, same, rfl⟩ := (shape number).mp typed
    exact ⟨word, (narrowed word).mpr found, same⟩

/-- A conversion to an integer type answers the integer of the value, in that type. -/
theorem formIn?_integral_iff (integral : type.integerBits? = some bits) :
    value.formIn? type = .ok (some converted) ↔
      ∃ number, value.toInteger? = some number ∧ converted.integer? = some (type, number) := by
  cases type with
  | tinyInt =>
    exact form_iff (fun _ => toTinyInt?_eq_some_iff) fun _ => by cases converted <;> simp [integer?]
  | smallInt =>
    exact form_iff (fun _ => toSmallInt?_eq_some_iff) fun _ => by
      cases converted <;> simp [integer?]
  | int =>
    exact form_iff (fun _ => toInt?_eq_some_iff) fun _ => by cases converted <;> simp [integer?]
  | bigInt =>
    exact form_iff (fun _ => toBigInt?_eq_some_iff) fun _ => by cases converted <;> simp [integer?]
  | _ => cases integral

/-- The number of a value without its fraction is what is converted, if it has 64 bits. -/
theorem toInteger?_of_quantity {quantity : ℚ} (stands : value.quantity? = some quantity) :
    value.toInteger? = some number ↔ number = towardZero quantity ∧ FitsBits 64 number := by
  cases value with
  | tinyInt word | smallInt word | int word | bigInt word =>
    cases stands
    rw [towardZero_intCast]
    constructor
    · intro found
      exact ⟨(Option.some.inj found).symm, fitsBits_of_toInteger? found⟩
    · rintro ⟨rfl, _⟩
      rfl
  | decimal number =>
    cases stands
    rw [← Decimal.truncated_eq_towardZero]
    exact inInt64?_eq_some_iff
  | _ => cases stands

/-- An integer or a decimal is converted to an integer type as its number without its fraction. -/
theorem convertTo_integral_iff {quantity : ℚ} (stands : value.quantity? = some quantity)
    (integral : type.integerBits? = some bits) : value.convertTo type = .ok converted ↔
      FitsBits 64 (towardZero quantity) ∧
        converted.integer? = some (type, towardZero quantity) := by
  have present : value ≠ .null := by
    rintro rfl
    cases stands
  rw [convertTo_eq_ok_iff present, formIn?_integral_iff integral]
  simp only [toInteger?_of_quantity stands]
  constructor
  · rintro ⟨_, ⟨rfl, fits⟩, same⟩
    exact ⟨fits, same⟩
  · rintro ⟨fits, same⟩
    exact ⟨_, ⟨rfl, fits⟩, same⟩

theorem integral_of_integer? (whole : value.integer? = some (type, number)) :
    ∃ bits, type.integerBits? = some bits ∧ FitsBits bits number := by
  have integral : ∃ bits, type.integerBits? = some bits := by
    cases value with
    | tinyInt | smallInt | int | bigInt =>
      cases whole
      exact ⟨_, rfl⟩
    | _ => cases whole
  obtain ⟨bits, integral⟩ := integral
  exact ⟨bits, integral, (exists_integer_iff integral).mp ⟨value, whole⟩⟩

/-- An integer is a decimal without a fraction. -/
theorem convertTo_decimal (whole : value.integer? = some (type, number)) :
    ∃ decimal : Decimal, value.convertTo .decimal = .ok (.decimal decimal) ∧
      decimal.toRat = number := by
  obtain ⟨bits, integral, fits⟩ := integral_of_integer? whole
  obtain ⟨least, greatest⟩ := fits.mono (DataType.integerBits?_le integral)
  -- The 64 bits of an integer fit into the 96 of a mantissa.
  have small : number.natAbs < mantissaLimit := by
    rw [mantissaLimit]
    omega
  obtain ⟨decimal, made, same⟩ := Decimal.exists_ofInt? small
  refine ⟨decimal, ?_, same⟩
  cases value with
  | tinyInt | smallInt | int | bigInt =>
    cases whole
    exact (convertTo_eq_ok_iff (by simp)).mpr (by simp [formIn?, toDecimal?, made])
  | _ => cases whole

/-- An integer or a decimal is converted to an integer type exactly if the number without its
fraction is in the range of the type, and then to that number. An integer is converted to a decimal
that stands for it, and from there back to itself. -/
theorem convertTo_integers :
    (∀ (value : Value) (quantity : ℚ) (type : DataType) (bits : Nat),
      value.quantity? = some quantity → type.integerBits? = some bits →
        ((∃ converted, value.convertTo type = .ok converted) ↔
          FitsBits bits (towardZero quantity)) ∧
        ∀ converted, value.convertTo type = .ok converted →
          converted.integer? = some (type, towardZero quantity)) ∧
    ∀ (value : Value) (type : DataType) (number : Int), value.integer? = some (type, number) →
      ∃ decimal : Decimal, value.convertTo .decimal = .ok (.decimal decimal) ∧
        decimal.toRat = number ∧ (Value.decimal decimal).convertTo type = .ok value := by
  constructor
  · intro value quantity type bits stands integral
    refine ⟨⟨?_, fun fits => ?_⟩, fun converted success =>
      ((convertTo_integral_iff stands integral).mp success).2⟩
    · rintro ⟨converted, success⟩
      have whole := ((convertTo_integral_iff stands integral).mp success).2
      exact (exists_integer_iff integral).mp ⟨converted, whole⟩
    · obtain ⟨converted, whole⟩ := (exists_integer_iff integral).mpr fits
      have wide := fits.mono (DataType.integerBits?_le integral)
      exact ⟨converted, (convertTo_integral_iff stands integral).mpr ⟨wide, whole⟩⟩
  · intro value type number whole
    obtain ⟨decimal, converts, same⟩ := convertTo_decimal whole
    obtain ⟨bits, integral, fits⟩ := integral_of_integer? whole
    have stands : (Value.decimal decimal).quantity? = some (number : ℚ) := congrArg some same
    refine ⟨decimal, converts, same, (convertTo_integral_iff stands integral).mpr ?_⟩
    rw [towardZero_intCast]
    exact ⟨fits.mono (DataType.integerBits?_le integral), whole⟩

/-- Nine tenths below the least integer of 64 bits. -/
def belowLeast : Decimal :=
  ⟨true, 92233720368547758089, 1, by decide, by decide⟩

/-- It is cut off to the least integer of 64 bits, which makes the way to a decimal and back. -/
theorem convertTo_belowLeast :
    (decimal belowLeast).quantity? = some belowLeast.toRat ∧
    (∃ converted, (decimal belowLeast).convertTo .bigInt = .ok converted ∧
      converted.integer? = some (.bigInt, -2 ^ 63)) ∧
    (¬ ∃ converted, (decimal belowLeast).convertTo .int = .ok converted) ∧
    (bigInt Int64.minValue).integer? = some (.bigInt, -2 ^ 63) ∧
    ∃ decimal : Decimal, (bigInt Int64.minValue).convertTo .decimal = .ok (.decimal decimal) ∧
      decimal.toRat = (-2 ^ 63 : Int) ∧
      (Value.decimal decimal).convertTo .bigInt = .ok (bigInt Int64.minValue) := by
  have cut : towardZero belowLeast.toRat = -2 ^ 63 := by
    rw [← Decimal.truncated_eq_towardZero]
    decide
  have wide := convertTo_integers.1 (decimal belowLeast) belowLeast.toRat .bigInt 64 rfl rfl
  have narrow := convertTo_integers.1 (decimal belowLeast) belowLeast.toRat .int 32 rfl rfl
  rw [cut] at wide narrow
  obtain ⟨converted, success⟩ := wide.1.mpr (by constructor <;> decide)
  refine ⟨rfl, ⟨converted, success, wide.2 converted success⟩, fun fits => ?_, rfl,
    convertTo_integers.2 (bigInt Int64.minValue) .bigInt (-2 ^ 63) rfl⟩
  exact absurd (narrow.1.mp fits).1 (by decide)

end Value

end RowProjection
