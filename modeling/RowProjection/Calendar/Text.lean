import RowProjection.Calendar.Time
import RowProjection.Text.Scan

namespace RowProjection.Calendar

open Text

/-- A year has at least four digits. Years outside 0 to 9999 carry a sign. -/
def yearChars (year : Int) : List Char :=
  let digits := Digits.padded 4 year.natAbs
  if year < 0 then '-' :: digits
  else if 9999 < year then '+' :: digits
  else digits

namespace Civil

def chars (civil : Civil) : List Char :=
  yearChars civil.year ++ '-' :: Digits.padded 2 civil.month ++ '-' :: Digits.padded 2 civil.day

end Civil

/-- A fraction of a second, in full groups of three digits; zero is left out. -/
def fractionChars (nanos : Nat) : List Char :=
  if nanos = 0 then []
  else if nanos % 1000000 = 0 then '.' :: Digits.padded 3 (nanos / 1000000)
  else if nanos % 1000 = 0 then '.' :: Digits.padded 6 (nanos / 1000)
  else '.' :: Digits.padded 9 nanos

namespace Date

def chars (date : Date) : List Char :=
  date.civil.chars

def text (date : Date) : String :=
  String.ofList date.chars

end Date

namespace Time

/-- Hours, minutes and seconds; a leap second is written as the second after. -/
def chars (time : Time) : List Char :=
  Digits.padded 2 (time.seconds / 3600) ++
    ':' :: Digits.padded 2 (time.seconds / 60 % 60) ++
    ':' :: Digits.padded 2 (time.seconds % 60 + time.nanos / 1000000000) ++
    fractionChars (time.nanos % 1000000000)

def text (time : Time) : String :=
  String.ofList time.chars

end Time

namespace Timestamp

def chars (timestamp : Timestamp) : List Char :=
  timestamp.date.chars ++ 'T' :: timestamp.time.chars

def text (timestamp : Timestamp) : String :=
  String.ofList timestamp.chars

end Timestamp

/-- An offset in hours and minutes, rounded to the nearest minute. -/
def offsetChars (offset : Int) : List Char :=
  let minutes := (offset.natAbs + 30) / 60
  (if offset < 0 then '-' else '+') ::
    Digits.padded 2 (minutes / 60) ++ ':' :: Digits.padded 2 (minutes % 60)

namespace OffsetTimestamp

def chars (instant : OffsetTimestamp) : List Char :=
  (Civil.ofDayNumber instant.localDay).chars ++ 'T' :: instant.localTime.chars ++
    offsetChars instant.offset

def text (instant : OffsetTimestamp) : String :=
  String.ofList instant.chars

end OffsetTimestamp

/-- A year: up to four digits, or any number of digits behind a sign. -/
def scanYear : Scan Int := fun text =>
  match text with
  | '-' :: rest => do
    let (digits, remaining) ← Scan.allDigits rest
    return (-(Digits.value digits : Int), remaining)
  | '+' :: rest => do
    let (digits, remaining) ← Scan.allDigits rest
    return ((Digits.value digits : Int), remaining)
  | _ => do
    let (year, remaining) ← Scan.number 1 4 text
    return ((year : Int), remaining)

/-- A number of one or two digits, behind blanks. -/
def scanPart : Scan Nat := do
  Scan.blanks
  Scan.number 1 2

/-- The digits of a fraction as nanoseconds: the first nine count. -/
def scanNanos : Scan Nat := do
  let digits ← Scan.allDigits
  return Digits.value (digits.take 9 ++ List.replicate (9 - digits.length) '0')

/-- A fraction behind a point, or nothing. -/
def scanFraction : Scan Nat := fun text =>
  match text with
  | '.' :: rest => scanNanos rest
  | _ => some (0, text)

/-- The time of day with these parts. Second 60 is the leap second behind second 59. -/
def Time.ofClock? (hour minute second nanos : Nat) : Option Time :=
  if hour < 24 ∧ minute < 60 ∧ second ≤ 60 then
    if second = 60 then Time.ofParts? (hour * 3600 + minute * 60 + 59) (nanos + 1000000000)
    else Time.ofParts? (hour * 3600 + minute * 60 + second) nanos
  else none

def scanDate : Scan Date := do
  Scan.blanks
  let year ← scanYear
  Scan.char '-'
  let month ← scanPart
  Scan.char '-'
  let day ← scanPart
  Date.ofCivil? ⟨year, month, day⟩

def scanTime : Scan Time := do
  let hour ← scanPart
  Scan.char ':'
  let minute ← scanPart
  Scan.char ':'
  let second ← scanPart
  let nanos ← scanFraction
  Time.ofClock? hour minute second nanos

/-- A date, what stands between, and a time. -/
def scanTimestamp (between : Scan Unit) : Scan Timestamp := do
  let date ← scanDate
  between
  let time ← scanTime
  return ⟨date, time⟩

/-- An offset: `Z`, or a sign, hours and minutes. -/
def scanOffset : Scan Int := do
  match ← Scan.oneOf ['Z', 'z', '+', '-', '\u2212'] with
  | 'Z' | 'z' => return 0
  | sign =>
    let hours ← Scan.number 2 2
    Scan.char ':'
    let minutes ← Scan.number 2 2
    guard (minutes < 60)
    let seconds : Int := hours * 3600 + minutes * 60
    return if sign = '+' then seconds else -seconds

/-- A date and time with an offset, in the strict form: every number has its full width. -/
def scanOffsetTimestamp : Scan OffsetTimestamp := do
  let year ← Scan.number 4 4
  Scan.char '-'
  let month ← Scan.number 2 2
  Scan.char '-'
  let day ← Scan.number 2 2
  discard (Scan.oneOf ['T', 't', ' '])
  let hour ← Scan.number 2 2
  Scan.char ':'
  let minute ← Scan.number 2 2
  Scan.char ':'
  let second ← Scan.number 2 2
  let nanos ← scanFraction
  let offset ← scanOffset
  let date ← Date.ofCivil? ⟨year, month, day⟩
  let time ← Time.ofClock? hour minute second nanos
  OffsetTimestamp.ofLocal? ⟨date, time⟩ offset

namespace Date

def read? (text : List Char) : Option Date :=
  scanDate.whole? text

end Date

namespace Time

def read? (text : List Char) : Option Time :=
  scanTime.whole? text

end Time

namespace Timestamp

/-- Date and time stand on both sides of a `T`, or of blanks, which may be missing. -/
def read? (text : List Char) : Option Timestamp :=
  ((scanTimestamp (Scan.char 'T')).whole? text).orElse fun _ =>
    (scanTimestamp Scan.blanks).whole? text

end Timestamp

namespace OffsetTimestamp

def read? (text : List Char) : Option OffsetTimestamp :=
  scanOffsetTimestamp.whole? text

end OffsetTimestamp

end RowProjection.Calendar
