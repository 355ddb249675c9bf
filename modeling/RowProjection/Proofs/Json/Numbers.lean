import RowProjection.Json.Reading
import RowProjection.Number.FloatText
import RowProjection.Proofs.Json.Grammar
import RowProjection.Proofs.Number.Shortest
import RowProjection.Proofs.Text.Scan

namespace RowProjection

open Json Grammar

namespace Text.Digits

theorem areDigits_ofNat (number : Nat) : AreDigits (ofNat number) :=
  ⟨Nat.toDigits_ne_nil, fun _ member => isDigit_of_mem_ofNat member⟩

theorem leading_ofNat (number : Nat) (zero : (ofNat number).head? = some '0') :
    ofNat number = ['0'] := by
  rcases Nat.eq_zero_or_pos number with rfl | positive
  · rfl
  · exact absurd zero (head?_ofNat positive)

end Text.Digits

namespace Json.Source

open Text.Digits

/-- What stands behind a value: nothing, the mark of the next one or of an end, or a blank. -/
def Ends (rest : List Char) : Prop :=
  ∀ head ∈ rest.head?, head ∈ [',', ']', '\x7d'] ∨ isSpace head = true

variable {text rest : List Char}

theorem Ends.noNumber {head : Char} (ends : Ends rest) (front : head ∈ rest.head?) :
    head.isDigit = false ∧ head ≠ '.' := by
  have mark := ends head front
  simp only [List.mem_cons, List.not_mem_nil, or_false, isSpace, Bool.or_eq_true, beq_iff_eq,
    or_assoc] at mark
  rcases mark with rfl | rfl | rfl | rfl | rfl | rfl | rfl <;> decide

theorem readWhole_append {digits : List Char} (areDigits : AreDigits digits)
    (leading : digits.head? = some '0' → digits = ['0'])
    (stop : ∀ head ∈ rest.head?, head.isDigit = false) :
    readWhole (digits ++ rest) = some (digits, rest) := by
  unfold readWhole
  rw [split_append areDigits.2 stop]
  split
  · next empty => exact absurd (Prod.mk.inj empty).1 areDigits.1
  · next second others behind same =>
    rw [(Prod.mk.inj same).1] at leading
    cases leading rfl
  · next same => rw [same]

theorem readFraction_append {spelling digits : List Char} (fraction : FractionText spelling digits)
    (stop : ∀ head ∈ rest.head?, head.isDigit = false ∧ head ≠ '.') :
    readFraction (spelling ++ rest) = some (digits, rest) := by
  cases fraction with
  | none =>
    rw [List.nil_append]
    unfold readFraction
    split
    · exact absurd rfl (stop '.' rfl).2
    · rfl
  | point areDigits =>
    exact Text.Scan.allDigits_append areDigits.1 areDigits.2 fun head front => (stop head front).1

theorem readExponent_append {spelling : List Char} {exponent : Option (Bool × List Char)}
    (power : ExponentText spelling exponent) (ends : Ends rest) :
    readExponent (spelling ++ rest) = some (exponent, rest) := by
  cases power with
  | none =>
    rw [List.nil_append]
    unfold readExponent
    dsimp only
    split
    · exact absurd (ends 'e' rfl) (by decide)
    · exact absurd (ends 'E' rfl) (by decide)
    · rfl
  | @power mark sign digits negative marks signs areDigits =>
    have all := Text.Scan.allDigits_append areDigits.1 areDigits.2
      fun head front => (ends.noNumber front).1
    simp only [List.mem_cons, List.not_mem_nil, or_false, Prod.mk.injEq] at marks signs
    rcases signs with ⟨rfl, rfl⟩ | ⟨rfl, rfl⟩ | ⟨rfl, rfl⟩
    · rcases marks with rfl | rfl
      all_goals
        simp only [List.nil_append, List.cons_append, readExponent]
        split
        · next same => exact absurd same (append_ne_cons areDigits.1 areDigits.2 rfl)
        · next same => exact absurd same (append_ne_cons areDigits.1 areDigits.2 rfl)
        · simp [all]
    · rcases marks with rfl | rfl <;> simp [readExponent, all]
    · rcases marks with rfl | rfl <;> simp [readExponent, all]

theorem stop_of_exponentText {spelling : List Char} {exponent : Option (Bool × List Char)}
    (power : ExponentText spelling exponent) (ends : Ends rest) :
    ∀ head ∈ (spelling ++ rest).head?, head.isDigit = false ∧ head ≠ '.' := by
  intro head front
  cases power with
  | none => exact ends.noNumber front
  | power marks =>
    cases front
    simp only [List.mem_cons, List.not_mem_nil, or_false] at marks
    rcases marks with rfl | rfl <;> decide

/-- A number is taken whole, up to the mark behind it. -/
theorem readNumber_of_numberAt {token : NumberToken} (number : NumberAt text token rest)
    (ends : Ends rest) : readNumber text = some (token, rest) := by
  cases number with
  | @number negative whole digits fraction power _ exponent areDigits leading fractionText
      exponentText =>
    have behindFraction := stop_of_exponentText exponentText ends
    have behindWhole : ∀ head ∈ (fraction ++ (power ++ rest)).head?, head.isDigit = false := by
      intro head front
      cases fractionText with
      | none => exact (behindFraction head front).1
      | point => cases front; rfl
    have wholeRead := readWhole_append areDigits leading behindWhole
    have fractionRead := readFraction_append fractionText behindFraction
    have exponentRead := readExponent_append exponentText ends
    cases negative with
    | false =>
      simp only [readNumber, Bool.false_eq_true, if_false, List.nil_append]
      split
      · next same => exact absurd same (append_ne_cons areDigits.1 areDigits.2 rfl)
      · simp [wholeRead, fractionRead, exponentRead]
    | true => simp [readNumber, wholeRead, fractionRead, exponentRead]

/-- A text that is this number as a token, whatever stands behind it. -/
def Spells (text : List Char) (token : NumberToken) : Prop :=
  ∀ rest, NumberAt (text ++ rest) token rest

theorem spells_number {whole digits fraction power : List Char}
    {exponent : Option (Bool × List Char)} (negative : Bool) (areDigits : AreDigits whole)
    (leading : whole.head? = some '0' → whole = ['0'])
    (fractionText : FractionText fraction digits) (exponentText : ExponentText power exponent) :
    Spells ((if negative then ['-'] else []) ++ (whole ++ (fraction ++ power)))
      ⟨negative, whole, digits, exponent⟩ := by
  intro rest
  rw [List.append_assoc, List.append_assoc, List.append_assoc]
  exact .number areDigits leading fractionText exponentText

theorem spells_ofInt (value : Int) :
    Spells (ofInt value) ⟨decide (value < 0), ofNat value.natAbs, [], none⟩ := by
  have spells := spells_number (decide (value < 0)) (areDigits_ofNat value.natAbs)
    (leading_ofNat value.natAbs) .none .none
  have sign : ofInt value = (if decide (value < 0) then ['-'] else []) ++
      (ofNat value.natAbs ++ ([] ++ [])) := by
    cases value with
    | ofNat number => simp [ofInt]
    | negSucc before => simp [ofInt, Int.negSucc_lt_zero]
  rwa [sign]

end Json.Source

namespace Json

theorem pushDigit?_of_lt {significand : Nat} {digit : Char}
    (fits : significand * 10 + (digit.toNat - '0'.toNat) < UInt64.size) :
    pushDigit? significand digit = some (significand * 10 + (digit.toNat - '0'.toNat)) :=
  if_pos fits

-- The bound of `pushDigit?` is too large to be unfolded on the way.
attribute [local irreducible] pushDigit? in
theorem wholeDigits_cons (significand : Nat) (digit : Char) (rest : List Char) :
    wholeDigits significand (digit :: rest) =
      match pushDigit? significand digit with
      | some next => wholeDigits next rest
      | none => (significand, rest.length + 1) :=
  rfl

theorem wholeDigits_of_lt {significand : Nat} {digits : List Char}
    (fits : Nat.ofDigitChars 10 digits significand < UInt64.size) :
    wholeDigits significand digits = (Nat.ofDigitChars 10 digits significand, 0) := by
  induction digits generalizing significand with
  | nil => rfl
  | cons digit rest ih =>
    rw [Nat.ofDigitChars_cons, Nat.mul_comm 10 significand] at fits
    have grows : significand * 10 + (digit.toNat - '0'.toNat) ≤
        Nat.ofDigitChars 10 rest (significand * 10 + (digit.toNat - '0'.toNat)) := by
      rw [Nat.ofDigitChars_eq_ofDigitChars_zero]
      exact (Nat.le_mul_of_pos_left _ (Nat.pow_pos (by decide))).trans (Nat.le_add_right _ _)
    rw [wholeDigits_cons, pushDigit?_of_lt (grows.trans_lt fits), Nat.ofDigitChars_cons,
      Nat.mul_comm 10 significand]
    exact ih fits

/-- Integers of 64 bits are read as they were written. -/
theorem ofNumber?_ofInt {value : Int} (least : Int64.minValue.toInt ≤ value)
    (most : value < UInt64.size) :
    ofNumber? ⟨decide (value < 0), Text.Digits.ofNat value.natAbs, [], none⟩ =
      some (integer value) := by
  have size : UInt64.size = 18446744073709551616 := rfl
  have bottom : Int64.minValue.toInt = -9223372036854775808 := rfl
  have fits : value.natAbs < UInt64.size := by
    rw [size] at most ⊢
    rw [bottom] at least
    omega
  have whole : wholeDigits 0 (Text.Digits.ofNat value.natAbs) = (value.natAbs, 0) := by
    have same : Nat.ofDigitChars 10 (Text.Digits.ofNat value.natAbs) 0 = value.natAbs :=
      Text.Digits.value_ofNat value.natAbs
    rw [wholeDigits_of_lt (same.symm ▸ fits), same]
  rw [ofNumber?, whole]
  dsimp only [fractionDigits]
  rw [if_pos ⟨rfl, rfl⟩]
  rcases Int.lt_or_le value 0 with negative | positive
  · have magnitude : -(value.natAbs : Int) = value := by omega
    rw [if_neg (by simpa using negative), if_pos ⟨by omega, by omega⟩, magnitude]
  · have magnitude : (value.natAbs : Int) = value := by omega
    rw [if_pos (by simpa using positive), magnitude]

end Json

namespace Number

/-- A number without a sign. -/
inductive IsUnsigned : List Char → Prop where
  | spelled {whole digits fraction power : List Char} {exponent : Option (Bool × List Char)}
      (areDigits : AreDigits whole) (leading : whole.head? = some '0' → whole = ['0'])
      (fractionText : FractionText fraction digits) (exponentText : ExponentText power exponent) :
      IsUnsigned (whole ++ (fraction ++ power))

theorem IsUnsigned.spells {text : List Char} (isUnsigned : IsUnsigned text) (negative : Bool) :
    ∃ token, Source.Spells ((if negative then ['-'] else []) ++ text) token := by
  cases isUnsigned with
  | spelled areDigits leading fractionText exponentText =>
    exact ⟨_, Source.spells_number negative areDigits leading fractionText exponentText⟩

theorem areDigits_zero : AreDigits ['0'] := by
  constructor <;> simp

theorem FloatLayout.isUnsigned_zero (layout : FloatLayout) : IsUnsigned layout.zero := by
  unfold FloatLayout.zero
  split
  · exact .spelled areDigits_zero (fun _ => rfl) (.point areDigits_zero) .none
  · exact .spelled areDigits_zero (fun _ => rfl) .none .none

namespace PointedDigits.IsSignificant

variable {number : PointedDigits} (significant : number.IsSignificant)
include significant

/-- The digits behind zeros or in front of them are digits as well. -/
theorem isDigit_of_mem {count : Nat} {digit : Char}
    (member : digit ∈ List.replicate count '0' ∨ digit ∈ number.digits) :
    digit.isDigit = true := by
  rcases member with zero | digit
  · rw [List.eq_of_mem_replicate zero]
    rfl
  · exact significant.areDigits _ digit

theorem isUnsigned_inFull (layout : FloatLayout) : IsUnsigned (layout.inFull number) := by
  unfold FloatLayout.inFull
  dsimp only
  split
  · have fraction : AreDigits (List.replicate number.point.natAbs '0' ++ number.digits) :=
      ⟨List.append_ne_nil_of_right_ne_nil _ significant.nonempty, fun digit member =>
        significant.isDigit_of_mem (List.mem_append.mp member)⟩
    have spelled := IsUnsigned.spelled areDigits_zero (fun _ => rfl) (.point fraction) .none
    rwa [List.append_nil] at spelled
  · split
    · next before fits =>
      have whole : AreDigits (number.digits ++
          List.replicate (number.point.toNat - number.digits.length) '0') :=
        ⟨List.append_ne_nil_of_left_ne_nil significant.nonempty _, fun digit member =>
          significant.isDigit_of_mem (List.mem_append.mp member).symm⟩
      have leading : (number.digits ++
          List.replicate (number.point.toNat - number.digits.length) '0').head? ≠ some '0' := by
        rw [List.head?_append_of_ne_nil _ significant.nonempty]
        exact significant.head
      split
      · exact .spelled whole (fun zero => absurd zero leading) (.point areDigits_zero) .none
      · exact .spelled whole (fun zero => absurd zero leading) .none .none
    · next before longer =>
      have whole : AreDigits (number.digits.take number.point.toNat) := by
        refine ⟨?_, fun digit member => significant.areDigits digit (List.mem_of_mem_take member)⟩
        rw [ne_eq, List.take_eq_nil_iff]
        rintro (none | empty)
        · omega
        · exact significant.nonempty empty
      have fraction : AreDigits (number.digits.drop number.point.toNat) := by
        refine ⟨?_, fun digit member => significant.areDigits digit (List.mem_of_mem_drop member)⟩
        rw [ne_eq, List.drop_eq_nil_iff]
        omega
      have leading : (number.digits.take number.point.toNat).head? ≠ some '0' := by
        rw [List.head?_take, if_neg (by omega)]
        exact significant.head
      have spelled := IsUnsigned.spelled whole (fun zero => absurd zero leading) (.point fraction)
        .none
      rwa [List.append_nil] at spelled

theorem isUnsigned_withExponent : IsUnsigned (FloatLayout.withExponent number) := by
  obtain ⟨nonempty, areDigits, _⟩ := significant
  obtain ⟨digits, point⟩ := number
  cases digits with
  | nil => exact absurd rfl nonempty
  | cons first others =>
    have whole : AreDigits [first] :=
      ⟨List.cons_ne_nil _ _, fun digit member => areDigits digit
        (List.mem_cons.mpr (.inl (List.mem_singleton.mp member)))⟩
    have leading : [first].head? = some '0' → [first] = ['0'] := by
      rintro ⟨⟩
      rfl
    have digits := Text.Digits.areDigits_ofNat (point - 1).natAbs
    have power : ExponentText
        ('e' :: (if point - 1 < 0 then '-' else '+') :: Text.Digits.ofNat (point - 1).natAbs)
        (some (decide (point - 1 < 0), Text.Digits.ofNat (point - 1).natAbs)) := by
      by_cases down : point - 1 < 0
      · rw [if_pos down, decide_eq_true down]
        exact @ExponentText.power 'e' ['-'] _ true (by simp) (by simp) digits
      · rw [if_neg down, decide_eq_false down]
        exact @ExponentText.power 'e' ['+'] _ false (by simp) (by simp) digits
    cases others with
    | nil => exact .spelled whole leading .none power
    | cons second others =>
      have fraction : AreDigits (second :: others) :=
        ⟨List.cons_ne_nil _ _, fun digit member => areDigits digit (List.mem_cons_of_mem _ member)⟩
      exact .spelled whole leading (.point fraction) power

end PointedDigits.IsSignificant

/-- Finite floats are written as numbers. -/
theorem FloatLayout.spells_writeFinite (layout : FloatLayout) (format : FloatFormat)
    (negative : Bool) {mantissa : Nat} (exponent : Int) (bounded : mantissa < 2 ^ 53) :
    ∃ token, Source.Spells (layout.writeFinite format negative mantissa exponent) token := by
  unfold writeFinite
  dsimp only
  split
  · exact layout.isUnsigned_zero.spells negative
  · next nonzero =>
    have significant := RoundingInterval.isSignificant_shortest format exponent layout.halfUp
      (Nat.pos_of_ne_zero nonzero) bounded
    refine IsUnsigned.spells ?_ negative
    split
    · exact significant.isUnsigned_inFull layout
    · exact significant.isUnsigned_withExponent

/-- The token of a float is a number or `null`. -/
theorem FloatDatum.json_cases {format : FloatFormat} (layout : FloatLayout) (bits : Nat)
    (precision : format.fractionBits ≤ 52) :
    (format.decode bits).json format layout = ['n', 'u', 'l', 'l'] ∨
      ∃ token, Source.Spells ((format.decode bits).json format layout) token := by
  cases decoded : format.decode bits with
  | nan negative payload => exact .inl rfl
  | infinite negative => exact .inl rfl
  | finite negative mantissa exponent =>
    have bounded : mantissa < 2 ^ 53 :=
      (FloatFormat.mantissa_lt decoded).trans_le (Nat.pow_le_pow_right (by decide) (by omega))
    exact .inr (layout.spells_writeFinite format negative exponent bounded)

end Number

end RowProjection
