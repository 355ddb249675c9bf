import RowProjection.Proofs.Calendar.Text
import RowProjection.Proofs.Number.DecimalText
import RowProjection.Proofs.Record.RoundTrip
import RowProjection.Proofs.Value.Types
import RowProjection.Value.Equality

namespace RowProjection.Value

open Text Calendar

variable {value : Value} {type : DataType} {number : Int}

/-- The values that their own types read from texts, floats apart. -/
def IsWritten : Value → Prop
  | boolean _ | tinyInt _ | smallInt _ | int _ | bigInt _ | decimal _ | date _ | time _
  | timestamp _ => True
  | timestampTz moment => moment.IsWritten
  | _ => False

/-- Leap seconds end the minutes of UTC. -/
def HasRegularTime : Value → Prop
  | time clock => clock.IsRegular
  | timestamp moment => moment.time.IsRegular
  | timestampTz moment => moment.utc.time.IsRegular
  | _ => True

/-- A value as its text shows it. -/
def shown : Value → Value
  | decimal number => decimal number.settled
  | time clock => time clock.shown
  | timestamp moment => timestamp moment.shown
  | timestampTz moment => timestampTz moment.shown
  | value => value

theorem trimmed_ofList {chars : List Char} (figures : AreFigures chars) :
    trimmed (String.ofList chars) = chars := by
  rw [trimmed, String.toList_ofList, figures.trim]

theorem text_of_integer? (whole : value.integer? = some (type, number)) :
    value.text = String.ofList (Digits.ofInt number) := by
  cases value with
  | tinyInt | smallInt | int | bigInt =>
    cases whole
    rw [text]
  | _ => cases whole

theorem formIn?_text_integer (whole : value.integer? = some (type, number)) :
    (varchar value.text).formIn? type = .ok (some value) := by
  obtain ⟨bits, integral, fits⟩ := integral_of_integer? whole
  have wide := fits.mono (DataType.integerBits?_le integral)
  refine (formIn?_integral_iff integral).mpr ⟨number, ?_, whole⟩
  rw [toInteger?, text_of_integer? whole, trimmed_ofList (.ofInt number), Digits.readInt?_ofInt]
  exact inInt64?_eq_some_iff.mpr ⟨rfl, wide⟩

/-- The text of a value has a form in its type, which is the value as it is shown. -/
theorem formIn?_text (written : value.IsWritten) (own : value.ownType? = some type) :
    (varchar value.text).formIn? type = .ok (some value.shown) := by
  cases value with
  | boolean truth =>
    cases own
    cases truth <;> rfl
  | tinyInt | smallInt | int | bigInt =>
    cases own
    exact formIn?_text_integer rfl
  | decimal number =>
    cases own
    rw [formIn?, toDecimal?, text, Number.Decimal.text,
      trimmed_ofList number.areFigures_chars, number.read?_chars]
    rfl
  | date date =>
    cases own
    rw [formIn?, toDate?, text, Date.text, trimmed_ofList date.areFigures_chars,
      date.read?_chars]
    rfl
  | time clock =>
    cases own
    rw [formIn?, toTime?, text, Time.text, trimmed_ofList clock.areFigures_chars,
      clock.read?_chars]
    rfl
  | timestamp moment =>
    cases own
    rw [formIn?, toTimestamp?, text, Timestamp.text, trimmed_ofList moment.areFigures_chars,
      moment.read?_chars]
    rfl
  | timestampTz moment =>
    cases own
    rw [formIn?, toTimestampTz?, text, OffsetTimestamp.text,
      trimmed_ofList moment.areFigures_chars, OffsetTimestamp.read?_chars written]
    rfl
  | _ => exact written.elim

theorem same_shown_iff (written : value.IsWritten) :
    value.same value.shown = true ↔ value.HasRegularTime := by
  cases value with
  | boolean | tinyInt | smallInt | int | bigInt | date =>
    exact iff_of_true (by simp [same, shown]) trivial
  | decimal number =>
    rw [shown, same]
    exact iff_of_true number.sameNumber_settled trivial
  | time clock =>
    rw [shown, same, beq_iff_eq, eq_comm, Time.shown_eq_self_iff]
    rfl
  | timestamp moment =>
    rw [shown, same, beq_iff_eq, eq_comm, Timestamp.shown_eq_self_iff]
    rfl
  | timestampTz moment =>
    rw [shown, same, OffsetTimestamp.sameInstant, OffsetTimestamp.shown, beq_iff_eq, eq_comm,
      Timestamp.shown_eq_self_iff]
    rfl
  | _ => exact written.elim

/-- A value is converted to VARCHAR, and its text back to the type of the value; for a moment with
an offset, if its local year has four digits and its offset is one of whole minutes. The same value
comes back exactly if no leap second stands inside a minute, and the same offset in any case. -/
theorem convertTo_varchar_and_back (value : Value) (written : value.IsWritten) :
    ∃ type text back, value.ownType? = some type ∧
      value.convertTo .varchar = .ok (varchar text) ∧
      (varchar text).convertTo type = .ok back ∧
      (value.same back = true ↔ value.HasRegularTime) ∧
      ∀ moment, value = .timestampTz moment →
        ∃ again, back = .timestampTz again ∧ again.offset = moment.offset := by
  have present : value ≠ .null := by
    rintro rfl
    exact written
  have typed : ∃ type, value.ownType? = some type := by
    cases value with
    | null | map | row | record | object | bytes => exact written.elim
    | _ => exact ⟨_, rfl⟩
  obtain ⟨type, own⟩ := typed
  refine ⟨type, value.text, value.shown, own, ?_, ?_, same_shown_iff written, ?_⟩
  · exact (convertTo_eq_ok_iff present).mpr rfl
  · exact (convertTo_eq_ok_iff (by simp)).mpr (formIn?_text written own)
  · rintro moment rfl
    exact ⟨moment.shown, rfl, rfl⟩

section LeapSecond

open Record

/-- At two hours, the leap second at the end of a year ends a local minute as well. -/
theorem convertTo_yearEnd :
    (timestampTz ⟨yearEnd, 7200, by decide⟩).IsWritten ∧
    ∃ text back, (timestampTz ⟨yearEnd, 7200, by decide⟩).convertTo .varchar =
        .ok (varchar text) ∧
      (varchar text).convertTo .timestampTz = .ok back ∧
      (timestampTz ⟨yearEnd, 7200, by decide⟩).same back = true := by
  have written : (timestampTz ⟨yearEnd, 7200, by decide⟩).IsWritten :=
    ⟨by decide, by decide, by decide⟩
  obtain ⟨type, text, back, own, converts, returns, same, _⟩ :=
    convertTo_varchar_and_back _ written
  cases own
  exact ⟨written, text, back, converts, returns, same.mpr fun _ => by decide⟩

/-- At half a minute, the same second stands inside a local minute. The text of its time is that of
the second behind it, which is another time. -/
theorem midMinute_lost :
    (timestampTz ⟨yearEnd, 30, by decide⟩).convertTo .time = .ok (time midMinute.time) ∧
    (time midMinute.time).convertTo .varchar = .ok (varchar "00:00:30.500") ∧
    ∃ later, (varchar "00:00:30.500").convertTo .time = .ok (time later) ∧
      later.seconds = 30 ∧ later.nanos = 500000000 ∧
      (time midMinute.time).same (time later) = false := by
  have shows : (time midMinute.time).text = "00:00:30.500" := rfl
  refine ⟨rfl, ?_, midMinute.time.shown, ?_, rfl, rfl, rfl⟩
  · rw [← shows]
    rfl
  · rw [← shows]
    exact (convertTo_eq_ok_iff (by simp)).mpr (formIn?_text trivial rfl)

end LeapSecond

end RowProjection.Value
