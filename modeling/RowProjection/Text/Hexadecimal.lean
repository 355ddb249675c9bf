namespace RowProjection.Text.Hexadecimal

/-- The value of a digit, in either case. -/
def digit? (char : Char) : Option Nat :=
  if '0' ≤ char ∧ char ≤ '9' then some (char.toNat - '0'.toNat)
  else if 'a' ≤ char ∧ char ≤ 'f' then some (char.toNat - 'a'.toNat + 10)
  else if 'A' ≤ char ∧ char ≤ 'F' then some (char.toNat - 'A'.toNat + 10)
  else none

/-- The digits of a number in lower case, with zeros in front up to `width` places. -/
def padded (width number : Nat) : List Char :=
  let digits := Nat.toDigits 16 number
  List.replicate (width - digits.length) '0' ++ digits

/-- The two digits of a byte, the high half first. -/
def ofByte (byte : UInt8) : List Char :=
  [Nat.digitChar (byte.toNat / 16), Nat.digitChar (byte.toNat % 16)]

def ofBytes (bytes : List UInt8) : List Char :=
  bytes.flatMap ofByte

/-- The number that digits stand for, the most significant first. -/
def value? (digits : List Char) : Option Nat :=
  digits.foldlM (fun number char => (digit? char).map (number * 16 + ·)) 0

/-- The bytes of pairs of digits. -/
def readBytes? : List Char → Option (List UInt8)
  | [] => some []
  | [_] => none
  | high :: low :: rest => do
    let byte := (← digit? high) * 16 + (← digit? low)
    return UInt8.ofNat byte :: (← readBytes? rest)

end RowProjection.Text.Hexadecimal
