import RowProjection.Number.DecimalText
import RowProjection.Proofs.Text.Scan

namespace RowProjection.Number.Decimal

open Text

namespace Reading

/-- A reading after some more digits. -/
def after (reading : Reading) (digits : List Char) : Reading where
  mantissa := Nat.ofDigitChars 10 digits reading.mantissa
  scale := if reading.afterPoint then reading.scale + digits.length else reading.scale
  afterPoint := reading.afterPoint
  hasDigit := reading.hasDigit || !digits.isEmpty

theorem after_nil (reading : Reading) : reading.after [] = reading := by
  cases reading
  simp [after]

theorem after_cons (reading : Reading) (digit : Char) (digits : List Char) :
    reading.after (digit :: digits) = (reading.after [digit]).after digits := by
  simp only [after, Nat.ofDigitChars_cons, Nat.ofDigitChars_nil, List.length_cons,
    List.length_nil, List.isEmpty_cons, Bool.or_true, Bool.not_false, Bool.true_or]
  split
  · rw [Nat.add_assoc, Nat.add_comm (0 + 1)]
  · rfl

theorem le_after (reading : Reading) (digits : List Char) :
    reading.mantissa ≤ (reading.after digits).mantissa := by
  rw [after, Nat.ofDigitChars_eq_ofDigitChars_zero]
  exact (Nat.le_mul_of_pos_left _ (Nat.pow_pos (by decide))).trans (Nat.le_add_right _ _)

theorem push?_eq_after {reading : Reading} {digit : Char}
    (fits : (reading.after [digit]).mantissa < mantissaLimit) :
    reading.push? digit = some (reading.after [digit]) := by
  have one : (reading.after [digit]).mantissa =
      reading.mantissa * 10 + (digit.toNat - '0'.toNat) := by
    rw [after, Nat.ofDigitChars_cons, Nat.ofDigitChars_nil, Nat.mul_comm]
  rw [one] at fits
  rw [push?, if_pos fits, ← one]
  simp [after]

end Reading

variable {negative : Bool} {reading : Reading} {rest : List Char}

-- The bound of `push?` is too large to be unfolded on the way.
attribute [local irreducible] Reading.push? in
theorem readFrom_cons (char : Char) : readFrom negative reading (char :: rest) =
    if reading.afterPoint ∧ 28 ≤ reading.scale then
      reading.roundLastPlace? negative (char :: rest)
    else if char.isDigit then
      match reading.push? char with
      | some next => readFrom negative next rest
      | none => if reading.afterPoint then reading.round? negative (char :: rest) else none
    else if char = '.' ∧ ¬ reading.afterPoint then
      readFrom negative { reading with afterPoint := true } rest
    else if char = '_' ∧ reading.hasDigit then readFrom negative reading rest
    else none :=
  rfl

/-- Digits are read one after another, as long as they fit. -/
theorem readFrom_digits {digits : List Char} (all : ∀ digit ∈ digits, digit.isDigit = true)
    (fits : (reading.after digits).mantissa < mantissaLimit)
    (places : reading.afterPoint = true → reading.scale + digits.length ≤ 28) :
    readFrom negative reading (digits ++ rest) =
      readFrom negative (reading.after digits) rest := by
  induction digits generalizing reading with
  | nil => rw [List.nil_append, Reading.after_nil]
  | cons digit digits ih =>
    rw [List.forall_mem_cons] at all
    rw [Reading.after_cons] at fits ⊢
    have small := ((reading.after [digit]).le_after digits).trans_lt fits
    have room : ¬ (reading.afterPoint = true ∧ 28 ≤ reading.scale) := by
      rintro ⟨behind, full⟩
      have short := places behind
      rw [List.length_cons] at short
      omega
    have further : (reading.after [digit]).afterPoint = true →
        (reading.after [digit]).scale + digits.length ≤ 28 := by
      intro behind
      have short := places behind
      rw [List.length_cons] at short
      have next : (reading.after [digit]).scale = reading.scale + 1 := if_pos behind
      omega
    rw [List.cons_append, readFrom_cons, if_neg room, if_pos all.1, Reading.push?_eq_after small]
    exact ih all.2 fits further

theorem readFrom_lastDigits {digits : List Char} (all : ∀ digit ∈ digits, digit.isDigit = true)
    (fits : (reading.after digits).mantissa < mantissaLimit)
    (places : reading.afterPoint = true → reading.scale + digits.length ≤ 28) :
    readFrom negative reading digits = (reading.after digits).finish? negative := by
  have read : readFrom negative reading (digits ++ []) =
      readFrom negative (reading.after digits) [] := readFrom_digits all fits places
  rwa [List.append_nil] at read

theorem readFrom_point (before : reading.afterPoint = false) :
    readFrom negative reading ('.' :: rest) =
      readFrom negative { reading with afterPoint := true } rest := by
  rw [readFrom_cons, if_neg (by simp [before]), if_neg (by decide), if_pos (by simp [before])]

/-- The number with the sign that it is read with: a zero has none. -/
def settled (number : Decimal) : Decimal :=
  { number with negative := number.negative && number.mantissa != 0 }

theorem sameNumber_settled (number : Decimal) : number.sameNumber number.settled = true := by
  rw [sameNumber, settled]
  by_cases zero : number.mantissa = 0
  · simp [zero]
  · simp [zero]

theorem areFigures_chars (number : Decimal) : AreFigures number.chars := by
  have digits : AreFigures (Digits.padded (number.scale + 1) number.mantissa) := .padded
  rw [chars]
  refine .append (.append ?_ fun char member => digits char (List.mem_of_mem_take member)) ?_
  · split
    · exact .cons (by decide) .nil
    · exact .nil
  · split
    · exact .nil
    · exact .cons (by decide) fun char member => digits char (List.mem_of_mem_drop member)

theorem finish?_eq_settled {number : Decimal} (mantissa : reading.mantissa = number.mantissa)
    (scale : reading.scale = number.scale) (some : reading.hasDigit = true) :
    reading.finish? number.negative = Option.some number.settled := by
  rw [Reading.finish?, if_pos some, mantissa, scale]
  exact ofParts?_self number.settled

variable {number : Decimal} {whole fraction : List Char}

theorem readFrom_integral (all : ∀ digit ∈ whole, digit.isDigit = true) (some : whole ≠ [])
    (value : Digits.value whole = number.mantissa) (integral : number.scale = 0) :
    readFrom number.negative .start whole = Option.some number.settled := by
  have mantissa : (Reading.start.after whole).mantissa = number.mantissa := value
  have met : (Reading.start.after whole).hasDigit = true := by
    simp [Reading.after, some]
  have before : Reading.start.afterPoint ≠ true := Bool.false_ne_true
  rw [readFrom_lastDigits all (mantissa.trans_lt number.mantissa_lt) fun met => absurd met before]
  exact finish?_eq_settled mantissa integral.symm met

theorem readFrom_fractional (all : ∀ digit ∈ whole ++ fraction, digit.isDigit = true)
    (some : whole ≠ []) (value : Digits.value (whole ++ fraction) = number.mantissa)
    (places : fraction.length = number.scale) :
    readFrom number.negative .start (whole ++ '.' :: fraction) = Option.some number.settled := by
  rw [List.forall_mem_append] at all
  let behind : Reading := { Reading.start.after whole with afterPoint := true }
  have mantissa : (behind.after fraction).mantissa = number.mantissa := by
    rw [← value, Digits.value, Nat.ofDigitChars_append]
    rfl
  have fits := mantissa.trans_lt number.mantissa_lt
  have scale : (behind.after fraction).scale = number.scale := by
    rw [← places]
    exact Nat.zero_add _
  have met : (behind.after fraction).hasDigit = true := by
    simp [behind, Reading.after, some]
  have room : behind.scale + fraction.length ≤ 28 := by
    rw [places]
    exact (Nat.zero_add _).trans_le number.scale_le
  have before : Reading.start.afterPoint ≠ true := Bool.false_ne_true
  rw [readFrom_digits all.1 ((behind.le_after fraction).trans_lt fits)
    fun met => absurd met before, readFrom_point rfl]
  change readFrom number.negative behind fraction = _
  rw [readFrom_lastDigits all.2 fits fun _ => room]
  exact finish?_eq_settled mantissa scale met

/-- The text of a number without its sign. -/
def unsignedChars (number : Decimal) : List Char :=
  let digits := Digits.padded (number.scale + 1) number.mantissa
  let whole := digits.length - number.scale
  digits.take whole ++ if number.scale = 0 then [] else '.' :: digits.drop whole

theorem chars_eq (number : Decimal) :
    number.chars = (if number.negative then ['-'] else []) ++ number.unsignedChars := by
  rw [chars, unsignedChars, List.append_assoc]

/-- Before the point there is at least one digit, behind it there are those of the scale. -/
theorem unsignedChars_cases (number : Decimal) : ∃ whole fraction, whole ≠ [] ∧
    (∀ digit ∈ whole ++ fraction, digit.isDigit = true) ∧
    Digits.value (whole ++ fraction) = number.mantissa ∧ fraction.length = number.scale ∧
    number.unsignedChars = whole ++ if number.scale = 0 then [] else '.' :: fraction := by
  have length := Digits.le_length_padded (number.scale + 1) number.mantissa
  refine ⟨_, _, ?_, ?_, ?_, ?_, rfl⟩
  · rw [ne_eq, List.take_eq_nil_iff]
    rintro (none | empty)
    · omega
    · exact Digits.padded_ne_nil empty
  · rw [List.take_append_drop]
    exact fun _ => Digits.isDigit_of_mem_padded
  · rw [List.take_append_drop, Digits.value_padded]
  · rw [List.length_drop]
    omega

theorem readPlain?_chars (number : Decimal) : readPlain? number.chars = some number.settled := by
  obtain ⟨whole, fraction, some, all, value, places, same⟩ := number.unsignedChars_cases
  have read : readFrom number.negative .start number.unsignedChars =
      Option.some number.settled := by
    rw [same]
    split
    · next integral =>
      rw [List.length_eq_zero_iff.mp (places.trans integral), List.append_nil] at all value
      rw [List.append_nil, readFrom_integral all some value integral]
    · exact readFrom_fractional all some value places
  rw [chars_eq]
  cases sign : number.negative with
  | true =>
    rw [sign] at read
    exact read
  | false =>
    have digits := (List.forall_mem_append.mp all).1
    rw [sign] at read
    rw [if_neg (by decide), List.nil_append]
    unfold readPlain?
    split
    · next front => exact absurd (same.symm.trans front) (Digits.append_ne_cons some digits rfl)
    · next front => exact absurd (same.symm.trans front) (Digits.append_ne_cons some digits rfl)
    · exact read

theorem read?_chars (number : Decimal) : read? number.chars = some number.settled := by
  have plain : number.chars.span (fun char => char != 'e' && char != 'E') =
      (number.chars, []) := by
    have none : ∀ char ∈ number.chars, (char != 'e' && char != 'E') = true := by
      intro char member
      simp only [Bool.and_eq_true, bne_iff_ne]
      constructor
      · rintro rfl
        exact absurd (areFigures_chars number _ member) (by decide)
      · rintro rfl
        exact absurd (areFigures_chars number _ member) (by decide)
    rw [List.span_eq_takeWhile_dropWhile, List.takeWhile_eq_self_iff.mpr none,
      List.dropWhile_eq_nil_iff.mpr none]
  rw [read?, plain]
  exact readPlain?_chars number

end RowProjection.Number.Decimal
