namespace RowProjection.Text.Digits

/-- The decimal digits of a number, without leading zeros. -/
def ofNat (number : Nat) : List Char :=
  Nat.toDigits 10 number

/-- The digits of a number, with zeros in front up to `width` places. -/
def padded (width number : Nat) : List Char :=
  let digits := ofNat number
  List.replicate (width - digits.length) '0' ++ digits

/-- The digits of an integer behind its sign; a sign is written for negative numbers only. -/
def ofInt : Int → List Char
  | .ofNat number => ofNat number
  | .negSucc before => '-' :: ofNat (before + 1)

/-- The number that a run of decimal digits stands for. -/
def value (digits : List Char) : Nat :=
  Nat.ofDigitChars 10 digits 0

/-- Splits off the decimal digits in front. -/
def split (text : List Char) : List Char × List Char :=
  text.span Char.isDigit

/-- Splits off at most `limit` decimal digits in front. -/
def splitAtMost : Nat → List Char → List Char × List Char
  | limit + 1, head :: rest =>
    if head.isDigit then
      let (digits, remaining) := splitAtMost limit rest
      (head :: digits, remaining)
    else ([], head :: rest)
  | _, text => ([], text)

/-- Whether a text is one or more decimal digits and nothing else. -/
def areAll (text : List Char) : Bool :=
  !text.isEmpty && text.all Char.isDigit

/-- An integer: an optional sign, then one or more digits. -/
def readInt? (text : List Char) : Option Int :=
  match text with
  | '-' :: digits => if areAll digits then some (-(value digits : Int)) else none
  | '+' :: digits => if areAll digits then some (value digits) else none
  | digits => if areAll digits then some (value digits) else none

theorem value_ofNat (number : Nat) : value (ofNat number) = number :=
  Nat.ofDigitChars_ten_toDigits

theorem areAll_ofNat (number : Nat) : areAll (ofNat number) = true := by
  simp only [areAll, Bool.and_eq_true, Bool.not_eq_true', List.isEmpty_eq_false_iff,
    List.all_eq_true]
  exact ⟨Nat.toDigits_ne_nil, fun digit found =>
    Nat.isDigit_of_mem_toDigits (by decide) (by decide) found⟩

end RowProjection.Text.Digits
