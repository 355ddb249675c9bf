import Mathlib.Algebra.Ring.Nat
import Mathlib.Data.List.TakeDrop
import Mathlib.Data.List.TakeWhile
import Mathlib.Data.Nat.Digits.Defs
import RowProjection.Text.Digits

namespace RowProjection.Text.Digits

theorem isDigit_of_mem_ofNat {number : Nat} {digit : Char} (member : digit ∈ ofNat number) :
    digit.isDigit = true :=
  Nat.isDigit_of_mem_toDigits (by decide) (by decide) member

theorem head?_ofNat {number : Nat} (positive : 0 < number) : (ofNat number).head? ≠ some '0' := by
  induction number using Nat.base_induction 10 (by decide) with
  | single number small =>
    rw [ofNat, Nat.toDigits_of_lt_base small, List.head?_cons, ne_eq, Option.some.injEq,
      Nat.digitChar_eq_zero]
    omega
  | digit number last small leading ih =>
    have front := ih leading
    rw [ofNat] at front
    rw [ofNat, ← Nat.toDigits_append_toDigits (by decide) leading small]
    cases digits : Nat.toDigits 10 number with
    | nil => exact absurd digits Nat.toDigits_ne_nil
    | cons head rest =>
      rw [digits] at front
      exact front

/-- A number of so many digits is not below the power of ten that has as many. -/
theorem pow_le_of_length {number : Nat} (positive : 0 < number) :
    10 ^ ((ofNat number).length - 1) ≤ number := by
  by_contra below
  have small := Nat.not_le.mp below
  by_cases single : (ofNat number).length - 1 = 0
  · rw [single, Nat.pow_zero] at small
    omega
  · have short : (ofNat number).length ≤ (ofNat number).length - 1 :=
      (Nat.length_toDigits_le_iff (by decide) (Nat.pos_of_ne_zero single)).mpr small
    omega

theorem lt_pow_length (number : Nat) : number < 10 ^ (ofNat number).length :=
  (Nat.length_toDigits_le_iff (by decide) Nat.length_toDigits_pos).mp le_rfl

variable {width number : Nat} {digits rest : List Char}

theorem isDigit_of_mem_padded {digit : Char} (member : digit ∈ padded width number) :
    digit.isDigit = true := by
  rcases List.mem_append.mp member with zero | digit
  · rw [List.eq_of_mem_replicate zero]
    rfl
  · exact isDigit_of_mem_ofNat digit

theorem padded_ne_nil : padded width number ≠ [] :=
  List.append_ne_nil_of_right_ne_nil _ Nat.toDigits_ne_nil

theorem length_padded (positive : 0 < width) (fits : number < 10 ^ width) :
    (padded width number).length = width := by
  have short : (ofNat number).length ≤ width :=
    (Nat.length_toDigits_le_iff (by decide) positive).mpr fits
  rw [padded, List.length_append, List.length_replicate, Nat.sub_add_cancel short]

theorem le_length_padded (width number : Nat) : width ≤ (padded width number).length := by
  rw [padded, List.length_append, List.length_replicate]
  omega

theorem value_append (left right : List Char) :
    value (left ++ right) = value left * 10 ^ right.length + value right := by
  rw [value, Nat.ofDigitChars_append, Nat.ofDigitChars_eq_ofDigitChars_zero, Nat.mul_comm]
  rfl

theorem value_replicate_zero (count : Nat) : value (List.replicate count '0') = 0 := by
  rw [value, Nat.ofDigitChars_replicate_zero, Nat.mul_zero]

theorem value_padded : value (padded width number) = number := by
  rw [padded, value_append, value_replicate_zero, Nat.zero_mul, Nat.zero_add, value_ofNat]

/-- Digits are split off up to the first character that is none. -/
theorem split_append (all : ∀ digit ∈ digits, digit.isDigit = true)
    (stop : ∀ head ∈ rest.head?, head.isDigit = false) :
    split (digits ++ rest) = (digits, rest) := by
  rw [split, List.span_eq_takeWhile_dropWhile, List.takeWhile_append_of_pos all,
    List.dropWhile_append_of_pos all]
  cases rest with
  | nil => simp
  | cons head rest => simp [stop head rfl]

/-- As many digits as there may be are split off, whatever stands behind them. -/
theorem splitAtMost_append (all : ∀ digit ∈ digits, digit.isDigit = true) (rest : List Char) :
    splitAtMost digits.length (digits ++ rest) = (digits, rest) := by
  induction digits with
  | nil => rfl
  | cons digit digits ih =>
    rw [List.forall_mem_cons] at all
    rw [List.length_cons, List.cons_append, splitAtMost, if_pos all.1, ih all.2]

/-- A text that begins with a digit does not begin with another mark. -/
theorem append_ne_cons {mark : Char} {behind : List Char} (some : digits ≠ [])
    (all : ∀ digit ∈ digits, digit.isDigit = true) (noDigit : mark.isDigit = false) :
    digits ++ rest ≠ mark :: behind := by
  cases digits with
  | nil => exact absurd rfl some
  | cons first others =>
    intro same
    have front := (List.cons.inj same).1
    rw [← front, all first List.mem_cons_self] at noDigit
    cases noDigit

theorem readInt?_ofInt (number : Int) : readInt? (ofInt number) = some number := by
  cases number with
  | ofNat number =>
    have unsigned {mark : Char} {behind : List Char} (noDigit : mark.isDigit = false) :
        ofNat number ≠ mark :: behind := by
      have apart : ofNat number ++ [] ≠ mark :: behind :=
        append_ne_cons Nat.toDigits_ne_nil (fun _ => isDigit_of_mem_ofNat) noDigit
      rwa [List.append_nil] at apart
    rw [ofInt, readInt?, if_pos (areAll_ofNat number), value_ofNat]
    · rfl
    · exact fun _ => unsigned rfl
    · exact fun _ => unsigned rfl
  | negSucc before =>
    rw [ofInt, readInt?, if_pos (areAll_ofNat _), value_ofNat]
    rfl

end RowProjection.Text.Digits
