import RowProjection.Calendar.Text
import RowProjection.Proofs.Calendar.Civil
import RowProjection.Proofs.Text.Scan

/-! Dates and times are read back from their texts. A leap second comes back where it ends a minute,
as the text shows it; elsewhere the text is that of the second behind it. -/

namespace RowProjection.Calendar

open Text

variable {rest : List Char}

theorem areFigures_yearChars (year : Int) : AreFigures (yearChars year) := by
  rw [yearChars]
  split
  · exact .cons (by decide) .padded
  · split
    · exact .cons (by decide) .padded
    · exact .padded

theorem yearChars_ne_nil (year : Int) : yearChars year ≠ [] := by
  rw [yearChars]
  split
  · exact List.cons_ne_nil _ _
  · split
    · exact List.cons_ne_nil _ _
    · exact Digits.padded_ne_nil

/-- A year is read up to the first character that is no digit. -/
theorem scanYear_append (year : Int) (stop : ∀ head ∈ rest.head?, head.isDigit = false) :
    scanYear (yearChars year ++ rest) = some (year, rest) := by
  have all : ∀ digit ∈ Digits.padded 4 year.natAbs, digit.isDigit = true :=
    fun _ => Digits.isDigit_of_mem_padded
  have digits := Scan.allDigits_padded 4 year.natAbs stop
  rw [yearChars]
  split
  · next negative =>
    simp only [List.cons_append, scanYear, digits, Option.bind_eq_bind, Option.bind_some,
      Digits.value_padded]
    have same : -(year.natAbs : Int) = year := by omega
    rw [same]
    rfl
  · split
    · next nonnegative long =>
      simp only [List.cons_append, scanYear, digits, Option.bind_eq_bind, Option.bind_some,
        Digits.value_padded]
      have same : (year.natAbs : Int) = year := by omega
      rw [same]
      rfl
    · next nonnegative short =>
      have fits : year.natAbs < 10 ^ 4 := by omega
      have same : (year.natAbs : Int) = year := by omega
      unfold scanYear
      split
      · next front => exact absurd front (Digits.append_ne_cons Digits.padded_ne_nil all rfl)
      · next front => exact absurd front (Digits.append_ne_cons Digits.padded_ne_nil all rfl)
      · rw [Scan.number_padded (by decide) (by decide) fits, Option.bind_eq_bind,
          Option.bind_some]
        dsimp only
        rw [same]
        rfl

theorem scanPart_append {number : Nat} (fits : number < 10 ^ 2) (rest : List Char) :
    scanPart (Digits.padded 2 number ++ rest) = some (number, rest) := by
  rw [scanPart, Scan.bind_of (Scan.blanks_append Digits.padded_ne_nil .padded)]
  exact Scan.number_padded (by decide) (by decide) fits rest

/-- A fraction of fewer than nine places has zeros behind it. -/
theorem scanNanos_append {width number : Nat} (positive : 0 < width) (short : width ≤ 9)
    (fits : number < 10 ^ width) (stop : ∀ head ∈ rest.head?, head.isDigit = false) :
    scanNanos (Digits.padded width number ++ rest) = some (number * 10 ^ (9 - width), rest) := by
  have length := Digits.length_padded positive fits
  have all : (Digits.padded width number).take 9 = Digits.padded width number :=
    List.take_of_length_le (by omega)
  rw [scanNanos, Scan.bind_of (Scan.allDigits_padded width number stop), all, length,
    Digits.value_append, Digits.value_padded, Digits.value_replicate_zero, List.length_replicate,
    Nat.add_zero]
  rfl

theorem areFigures_fractionChars (nanos : Nat) : AreFigures (fractionChars nanos) := by
  rw [fractionChars]
  split
  · exact .nil
  · split
    · exact .cons (by decide) .padded
    · split
      · exact .cons (by decide) .padded
      · exact .cons (by decide) .padded

theorem scanFraction_append {nanos : Nat} (below : nanos < 1000000000)
    (stop : ∀ head ∈ rest.head?, head.isDigit = false ∧ head ≠ '.') :
    scanFraction (fractionChars nanos ++ rest) = some (nanos, rest) := by
  have ends : ∀ head ∈ rest.head?, head.isDigit = false := fun head front => (stop head front).1
  rw [fractionChars]
  split
  · next zero =>
    rw [zero, List.nil_append]
    unfold scanFraction
    split
    · exact absurd rfl (stop '.' rfl).2
    · rfl
  · split
    · next milli =>
      have same : nanos / 1000000 * 10 ^ (9 - 3) = nanos := by omega
      rw [List.cons_append, scanFraction,
        scanNanos_append (by decide) (by decide) (by omega) ends, same]
    · split
      · next micro =>
        have same : nanos / 1000 * 10 ^ (9 - 6) = nanos := by omega
        rw [List.cons_append, scanFraction,
          scanNanos_append (by decide) (by decide) (by omega) ends, same]
      · have same : nanos * 10 ^ (9 - 9) = nanos := by omega
        rw [List.cons_append, scanFraction,
          scanNanos_append (by decide) (by decide) (by omega) ends, same]

namespace Time

variable {time : Time}

/-- The seconds by which a time looks later than it is: one for a leap second inside a minute. -/
def carried (time : Time) : Nat :=
  if time.isLeap = true ∧ time.seconds % 60 ≠ 59 then 1 else 0

theorem carried_cases (time : Time) :
    (time.carried = 0 ∧ (time.nanos < 1000000000 ∨ time.seconds % 60 = 59)) ∨
      (time.carried = 1 ∧ 1000000000 ≤ time.nanos ∧ time.seconds % 60 ≠ 59) := by
  simp only [carried, isLeap, decide_eq_true_eq]
  split <;> omega

/-- What a time looks like: a leap second inside a minute looks like the second behind it. -/
def shown (time : Time) : Time where
  seconds := time.seconds + time.carried
  nanos := time.nanos - time.carried * 1000000000
  seconds_lt := by
    have below := time.seconds_lt
    have place := time.carried_cases
    omega
  nanos_lt := Nat.lt_of_le_of_lt (Nat.sub_le _ _) time.nanos_lt

@[simp]
theorem seconds_shown (time : Time) : time.shown.seconds = time.seconds + time.carried :=
  rfl

@[simp]
theorem nanos_shown (time : Time) :
    time.shown.nanos = time.nanos - time.carried * 1000000000 :=
  rfl

theorem isRegular_iff : time.IsRegular ↔ time.nanos < 1000000000 ∨ time.seconds % 60 = 59 := by
  rw [IsRegular, isLeap, decide_eq_true_eq]
  omega

theorem shown_eq_self_iff : time.shown = time ↔ time.IsRegular := by
  have place := time.carried_cases
  rw [isRegular_iff]
  constructor
  · intro same
    have seconds : time.seconds + time.carried = time.seconds := congrArg Time.seconds same
    omega
  · intro regular
    have none : time.carried = 0 := by omega
    refine eq_of_parts ?_ ?_
    · rw [seconds_shown, none, Nat.add_zero]
    · rw [nanos_shown, none, Nat.zero_mul, Nat.sub_zero]

theorem isRegular_shown : time.shown.IsRegular := by
  have bound := time.nanos_lt
  have place := time.carried_cases
  rw [isRegular_iff, seconds_shown, nanos_shown]
  omega

/-- The parts that are written are those of the time as it is shown. -/
theorem ofClock?_shown (time : Time) :
    ofClock? (time.seconds / 3600) (time.seconds / 60 % 60)
      (time.seconds % 60 + time.nanos / 1000000000) (time.nanos % 1000000000) =
        some time.shown := by
  have below := time.seconds_lt
  have bound := time.nanos_lt
  have place := time.carried_cases
  have inRange : time.seconds / 3600 < 24 ∧ time.seconds / 60 % 60 < 60 ∧
      time.seconds % 60 + time.nanos / 1000000000 ≤ 60 := by omega
  rw [ofClock?, if_pos inRange, ← ofParts?_self isRegular_shown, seconds_shown, nanos_shown]
  split
  · next ends =>
    have shownSecond : time.seconds / 3600 * 3600 + time.seconds / 60 % 60 * 60 + 59 =
        time.seconds + time.carried := by omega
    have shownFraction : time.nanos % 1000000000 + 1000000000 =
        time.nanos - time.carried * 1000000000 := by omega
    rw [shownSecond, shownFraction]
  · next inside =>
    have shownSecond : time.seconds / 3600 * 3600 + time.seconds / 60 % 60 * 60 +
        (time.seconds % 60 + time.nanos / 1000000000) = time.seconds + time.carried := by omega
    have shownFraction : time.nanos % 1000000000 =
        time.nanos - time.carried * 1000000000 := by omega
    rw [shownSecond, shownFraction]

theorem areFigures_chars (time : Time) : AreFigures time.chars := by
  rw [chars]
  exact .append (.append (.append .padded (.cons (by decide) .padded))
    (.cons (by decide) .padded)) (areFigures_fractionChars _)

theorem scanTime_append (time : Time)
    (stop : ∀ head ∈ rest.head?, head.isDigit = false ∧ head ≠ '.') :
    scanTime (time.chars ++ rest) = some (time.shown, rest) := by
  have below := time.seconds_lt
  have bound := time.nanos_lt
  simp only [chars, List.append_assoc, List.cons_append]
  rw [scanTime, Scan.bind_of (scanPart_append (by omega) _), Scan.bind_of (Scan.char_cons ':'),
    Scan.bind_of (scanPart_append (by omega) _), Scan.bind_of (Scan.char_cons ':'),
    Scan.bind_of (scanPart_append (by omega) _),
    Scan.bind_of (scanFraction_append (by omega) stop), ofClock?_shown]
  rfl

end Time

theorem Civil.areFigures_chars (civil : Civil) : AreFigures civil.chars :=
  .append (.append (areFigures_yearChars _) (.cons (by decide) .padded)) (.cons (by decide) .padded)

namespace Date

theorem areFigures_chars (date : Date) : AreFigures date.chars :=
  Civil.areFigures_chars date.civil

theorem scanDate_append (date : Date) (rest : List Char) :
    scanDate (date.chars ++ rest) = some (date, rest) := by
  have stop (behind : List Char) : ∀ head ∈ ('-' :: behind).head?, head.isDigit = false := by
    rintro _ ⟨⟩
    rfl
  simp only [chars, civil, Civil.chars, List.append_assoc, List.cons_append]
  rw [scanDate, Scan.bind_of (Scan.blanks_append (yearChars_ne_nil _) (areFigures_yearChars _)),
    Scan.bind_of (scanYear_append _ (stop _)), Scan.bind_of (Scan.char_cons '-'),
    Scan.bind_of (scanPart_append (Civil.month_lt_hundred _) _), Scan.bind_of (Scan.char_cons '-'),
    Scan.bind_of (scanPart_append (Civil.day_lt_hundred _) _),
    ofCivil?_ofDayNumber date.ofDayNumber?_day]
  rfl

/-- A date is read back from its text. -/
theorem read?_chars (date : Date) : read? date.chars = some date :=
  Scan.whole?_of_append (scanDate_append date [])

end Date

/-- A time is read back as it is shown. -/
theorem Time.read?_chars (time : Time) : read? time.chars = some time.shown :=
  Scan.whole?_of_append (scanTime_append time nofun)

namespace Timestamp

/-- A timestamp with its time as it is shown. -/
def shown (timestamp : Timestamp) : Timestamp :=
  ⟨timestamp.date, timestamp.time.shown⟩

theorem shown_eq_self_iff {timestamp : Timestamp} :
    timestamp.shown = timestamp ↔ timestamp.time.IsRegular := by
  rw [← Time.shown_eq_self_iff]
  exact ⟨congrArg Timestamp.time, congrArg (Timestamp.mk timestamp.date)⟩

theorem areFigures_chars (timestamp : Timestamp) : AreFigures timestamp.chars :=
  .append (Date.areFigures_chars _) (.cons (by decide) (Time.areFigures_chars _))

/-- A timestamp is read back as it is shown. -/
theorem read?_chars (timestamp : Timestamp) : read? timestamp.chars = some timestamp.shown := by
  have time : scanTime (timestamp.time.chars ++ []) = some (timestamp.time.shown, []) :=
    Time.scanTime_append timestamp.time nofun
  have taken : scanTimestamp (Scan.char 'T') (timestamp.chars ++ []) =
      some (timestamp.shown, []) := by
    rw [chars, List.append_assoc, List.cons_append, scanTimestamp,
      Scan.bind_of (Date.scanDate_append _ _), Scan.bind_of (Scan.char_cons 'T'),
      Scan.bind_of time]
    rfl
  rw [read?, Scan.whole?_of_append taken]
  rfl

end Timestamp

theorem areFigures_offsetChars (offset : Int) : AreFigures (offsetChars offset) := by
  have sign : (if offset < 0 then '-' else '+').isDigit = true ∨
      (if offset < 0 then '-' else '+') ∈ ['-', '+', '.', ':', 'T'] := by
    split <;> decide
  exact .append (.cons sign .padded) (.cons (by decide) .padded)

theorem yearChars_of_short {year : Int} (least : 0 ≤ year) (greatest : year ≤ 9999) :
    yearChars year = Digits.padded 4 year.natAbs := by
  rw [yearChars, if_neg (by omega), if_neg (by omega)]

theorem offsetChars_noDigit (offset : Int) (rest : List Char) :
    ∀ head ∈ (offsetChars offset ++ rest).head?, head.isDigit = false ∧ head ≠ '.' := by
  rintro _ ⟨⟩
  split <;> decide

/-- An offset of whole minutes is read back from its hours and minutes. -/
theorem scanOffset_append {offset : Int} (whole : 60 ∣ offset) (below : offset.natAbs < 86400)
    (rest : List Char) : scanOffset (offsetChars offset ++ rest) = some (offset, rest) := by
  have hours : (offset.natAbs + 30) / 60 / 60 < 10 ^ 2 := by omega
  have minutes : (offset.natAbs + 30) / 60 % 60 < 60 := by omega
  have seconds : (((offset.natAbs + 30) / 60 / 60 : Nat) : Int) * 3600 +
      ((offset.natAbs + 30) / 60 % 60 : Nat) * 60 = offset.natAbs := by omega
  have tail (mark : Char) (sign : mark = '-' ∨ mark = '+') :
      scanOffset (mark :: (Digits.padded 2 ((offset.natAbs + 30) / 60 / 60) ++
        ':' :: (Digits.padded 2 ((offset.natAbs + 30) / 60 % 60) ++ rest))) =
      some (if mark = '+' then (offset.natAbs : Int) else -offset.natAbs, rest) := by
    have allowed : mark ∈ ['Z', 'z', '+', '-', '\u2212'] := by
      rcases sign with rfl | rfl <;> decide
    rw [scanOffset, Scan.bind_of (Scan.oneOf_cons allowed)]
    split
    · exact absurd sign (by decide)
    · exact absurd sign (by decide)
    · rw [Scan.bind_of (Scan.number_padded (by decide) (by decide) hours _),
        Scan.bind_of (Scan.char_cons ':'),
        Scan.bind_of (Scan.number_padded (by decide) (by decide) (by omega) _),
        guard, if_pos minutes, seconds]
      rfl
  simp only [offsetChars, List.append_assoc, List.cons_append]
  by_cases negative : offset < 0
  · rw [if_pos negative, tail '-' (.inl rfl), if_neg (by decide)]
    congr 2
    omega
  · rw [if_neg negative, tail '+' (.inr rfl), if_pos rfl]
    congr 2
    omega

namespace OffsetTimestamp

variable {moment : OffsetTimestamp}

/-- A moment with its time as it is shown. -/
def shown (moment : OffsetTimestamp) : OffsetTimestamp :=
  ⟨moment.utc.shown, moment.offset, moment.offset_lt⟩

theorem seconds_localTime (moment : OffsetTimestamp) :
    (moment.localTime.seconds : Int) = moment.shiftedSeconds % 86400 :=
  Int.toNat_of_nonneg (by omega)

/-- At an offset of whole minutes, a local time is shown as it is shown in UTC. -/
theorem local_shown (whole : 60 ∣ moment.offset) :
    moment.shown.localDay = moment.localDay ∧
      moment.shown.localTime = moment.localTime.shown := by
  have seconds := seconds_localTime moment
  have shownSeconds := seconds_localTime moment.shown
  have shift : moment.shown.shiftedSeconds = moment.shiftedSeconds + moment.utc.time.carried := by
    rw [shiftedSeconds, shiftedSeconds]
    change ((moment.utc.time.seconds + moment.utc.time.carried : Nat) : Int) + moment.offset = _
    omega
  have same : moment.localTime.carried = moment.utc.time.carried := by
    have minute : moment.localTime.seconds % 60 = moment.utc.time.seconds % 60 := by
      rw [shiftedSeconds] at seconds
      omega
    rw [Time.carried, Time.carried, minute]
    rfl
  have place := moment.localTime.carried_cases
  rw [same] at place
  rw [shift] at shownSeconds
  refine ⟨?_, Time.eq_of_parts ?_ ?_⟩
  · rw [localDay, localDay, shift]
    change moment.utc.date.day + _ = _
    omega
  · rw [Time.seconds_shown, same]
    omega
  · rw [Time.nanos_shown, same]
    rfl

/-- A moment is found again from its local date and time. -/
theorem ofLocal?_local (moment : OffsetTimestamp) {date : Date}
    (found : Date.ofDayNumber? moment.localDay = some date) :
    ofLocal? ⟨date, moment.localTime⟩ moment.offset = some moment := by
  have day := Date.day_of_ofDayNumber? found
  have least := moment.utc.time.seconds_lt
  have seconds := seconds_localTime moment
  rw [localDay] at day
  rw [shiftedSeconds] at day seconds
  have sameDay : date.day + ((moment.localTime.seconds : Int) - moment.offset) / 86400 =
      moment.utc.date.day := by omega
  have sameSecond : (((moment.localTime.seconds : Int) - moment.offset) % 86400).toNat =
      moment.utc.time.seconds := by omega
  rw [ofLocal?]
  dsimp only
  rw [sameDay, Date.ofDayNumber?_day]
  simp only [sameSecond]
  exact dif_pos moment.offset_lt

theorem areFigures_chars (moment : OffsetTimestamp) : AreFigures moment.chars :=
  .append (.append (Civil.areFigures_chars _) (.cons (by decide) (Time.areFigures_chars _)))
    (areFigures_offsetChars _)

/-- The moments whose texts have years of four digits and offsets without seconds. -/
structure IsWritten (moment : OffsetTimestamp) : Prop where
  least : 0 ≤ (Civil.ofDayNumber moment.localDay).year
  greatest : (Civil.ofDayNumber moment.localDay).year ≤ 9999
  minutes : 60 ∣ moment.offset

theorem IsWritten.exists_date (written : moment.IsWritten) :
    ∃ date, Date.ofDayNumber? moment.localDay = some date :=
  ⟨_, dif_pos (Civil.inRange_of_year written.least written.greatest)⟩

theorem IsWritten.ofLocal?_shown (written : moment.IsWritten) {date : Date}
    (found : Date.ofDayNumber? moment.localDay = some date) :
    ofLocal? ⟨date, moment.localTime.shown⟩ moment.offset = some moment.shown := by
  obtain ⟨day, time⟩ := local_shown written.minutes
  rw [← time]
  exact ofLocal?_local moment.shown (by rw [day, found])

theorem scanOffsetTimestamp_append (written : moment.IsWritten) (rest : List Char) :
    scanOffsetTimestamp (moment.chars ++ rest) = some (moment.shown, rest) := by
  obtain ⟨date, found⟩ := written.exists_date
  have back := written.ofLocal?_shown found
  obtain ⟨least, greatest, minutes⟩ := written
  have year : (Civil.ofDayNumber moment.localDay).year.natAbs < 10 ^ 4 := by omega
  have sameYear : ((Civil.ofDayNumber moment.localDay).year.natAbs : Int) =
      (Civil.ofDayNumber moment.localDay).year := by omega
  have below := moment.localTime.seconds_lt
  have bound := moment.localTime.nanos_lt
  simp only [chars, Civil.chars, Time.chars, yearChars_of_short least greatest,
    List.append_assoc, List.cons_append]
  rw [scanOffsetTimestamp, Scan.bind_of (Scan.number_padded (by decide) (by decide) year _),
    Scan.bind_of (Scan.char_cons '-'),
    Scan.bind_of (Scan.number_padded (by decide) (by decide) (Civil.month_lt_hundred _) _),
    Scan.bind_of (Scan.char_cons '-'),
    Scan.bind_of (Scan.number_padded (by decide) (by decide) (Civil.day_lt_hundred _) _),
    Scan.bind_of (Scan.discard_oneOf_cons (by decide)),
    Scan.bind_of (Scan.number_padded (by decide) (by decide) (by omega) _),
    Scan.bind_of (Scan.char_cons ':'),
    Scan.bind_of (Scan.number_padded (by decide) (by decide) (by omega) _),
    Scan.bind_of (Scan.char_cons ':'),
    Scan.bind_of (Scan.number_padded (by decide) (by decide) (by omega) _),
    Scan.bind_of (scanFraction_append (by omega) (offsetChars_noDigit _ _)),
    Scan.bind_of (scanOffset_append minutes moment.offset_lt rest), sameYear,
    Scan.bind_lift (Date.ofCivil?_ofDayNumber found), Scan.bind_lift (Time.ofClock?_shown _),
    back]
  rfl

/-- A moment is read back as it is shown, if its text has the full form. -/
theorem read?_chars (written : moment.IsWritten) : read? moment.chars = some moment.shown :=
  Scan.whole?_of_append (scanOffsetTimestamp_append written [])

end OffsetTimestamp

end RowProjection.Calendar
