import RowProjection.Wire.Codec

namespace RowProjection.Wire

open Number

/-- The flags of a decimal: the scale in the third byte, the sign in the top bit. -/
def decimalFlags (number : Decimal) : Nat :=
  number.scale * 0x10000 + (if number.negative then 0x80000000 else 0)

private theorem div_add_lt {mantissa unit : Nat} (lt : mantissa < mantissaLimit) (ten : 10 ≤ unit)
    (round : Nat) (small : round ≤ 1) : mantissa / unit + round < mantissaLimit := by
  have smaller : mantissa / unit ≤ mantissa / 10 := Nat.div_le_div_left ten (by decide)
  rw [mantissaLimit] at lt ⊢
  omega

/-- The decimal with these flags and this mantissa. Flags other than scale and sign are passed
over. A scale above 28 is reduced; what is left out counts as one where it is five or more, in
units of its own last place. -/
def decimalOfWords (flags mantissa : Nat) : Decimal :=
  let negative := flags / 0x80000000 % 2 == 1
  let scale := flags / 0x10000 % 32
  let stored := mantissa % mantissaLimit
  have stored_lt : stored < mantissaLimit := Nat.mod_lt _ (by decide)
  if inRange : scale ≤ 28 then ⟨negative, stored, scale, stored_lt, inRange⟩
  else
    let unit := Nat.pow 10 (scale - 29 + 1)
    let round := if 5 ≤ stored % unit then 1 else 0
    have ten : 10 ≤ unit := by
      simp only [unit, Nat.pow_eq, Nat.pow_succ']
      exact Nat.le_mul_of_pos_right _ (Nat.pow_pos (by decide))
    have small : round ≤ 1 := by
      simp only [round]
      split <;> decide
    ⟨negative, stored / unit + round, 28, div_add_lt stored_lt ten round small, by decide⟩

namespace Codec

/-- Decimals as sixteen bytes, the flags in front of the mantissa. -/
def decimal : Codec Decimal where
  write number := .ok (littleEndian 4 (decimalFlags number) ++ littleEndian 12 number.mantissa)
  size _ := 16
  read := do
    let flags ← Reader.word 4
    let mantissa ← Reader.word 12
    return decimalOfWords flags mantissa

end Codec

end RowProjection.Wire
