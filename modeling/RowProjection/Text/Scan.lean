import RowProjection.Text.Blank
import RowProjection.Text.Digits

namespace RowProjection.Text

/-- A reader of characters: it answers and leaves the rest, or it fails. -/
abbrev Scan (α : Type) := StateT (List Char) Option α

namespace Scan

/-- Takes exactly this character. -/
def char (expected : Char) : Scan Unit
  | head :: rest => if head = expected then some ((), rest) else none
  | [] => none

/-- Takes one character of a set. -/
def oneOf (allowed : List Char) : Scan Char
  | head :: rest => if head ∈ allowed then some (head, rest) else none
  | [] => none

/-- Takes all blank characters in front, also none. -/
def blanks : Scan Unit :=
  fun text => some ((), trimStart text)

/-- Takes between `least` and `most` digits, as many as there are. -/
def digits (least most : Nat) : Scan (List Char) := fun text =>
  let (taken, rest) := Digits.splitAtMost most text
  if least ≤ taken.length then some (taken, rest) else none

/-- Takes all digits in front, at least one. -/
def allDigits : Scan (List Char) := fun text =>
  let (taken, rest) := Digits.split text
  if taken.isEmpty then none else some (taken, rest)

/-- The number written with between `least` and `most` digits. -/
def number (least most : Nat) : Scan Nat := do
  return Digits.value (← digits least most)

/-- What the reader answers if it takes the whole text. -/
def whole? {α : Type} (scan : Scan α) (text : List Char) : Option α :=
  match scan text with
  | some (answer, []) => some answer
  | _ => none

end Scan

end RowProjection.Text
