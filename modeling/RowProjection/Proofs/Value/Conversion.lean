import RowProjection.Proofs.Outcome
import RowProjection.Value.Convert

namespace RowProjection

namespace Calendar.OffsetTimestamp

/-- The local day lies before the first day of the calendar, or behind the last. -/
def IsUnreached (moment : OffsetTimestamp) : Prop :=
  moment.localDay < leastDay ∨ greatestDay < moment.localDay

theorem localDate?_eq_none_iff {moment : OffsetTimestamp} :
    moment.localDate? = none ↔ moment.IsUnreached := by
  rw [localDate?, Date.ofDayNumber?, IsUnreached]
  split <;> simp <;> omega

end Calendar.OffsetTimestamp

namespace Value

variable {value converted : Value} {type : DataType} {failure : Failure}

theorem isNull_eq_false_iff : value.isNull = false ↔ value ≠ .null := by
  cases value <;> simp [isNull]

/-- A value that is not null is converted by its form in the type. -/
theorem convertTo_eq_ok_iff (present : value ≠ .null) :
    value.convertTo type = .ok converted ↔ value.formIn? type = .ok (some converted) := by
  rw [convertTo, isNull_eq_false_iff.mpr present, if_neg Bool.false_ne_true]
  split <;> simp_all

/-- The conversions to local dates, of moments whose local day the calendar does not have. -/
def LeavesCalendar (value : Value) (type : DataType) : Prop :=
  (type = .date ∨ type = .timestamp) ∧ ∃ moment, value = .timestampTz moment ∧ moment.IsUnreached

theorem reached_eq_error_iff {α : Type} {moment? : Option α} :
    reached moment? = .error failure ↔ failure = .breach .localDateOutOfRange ∧ moment? = none := by
  cases moment? <;> simp [reached, eq_comm]

theorem toDate?_eq_error_iff : value.toDate? = .error failure ↔
    failure = .breach .localDateOutOfRange ∧
      ∃ moment, value = .timestampTz moment ∧ moment.IsUnreached := by
  cases value with
  | timestampTz moment =>
    simp [toDate?, reached_eq_error_iff, Calendar.OffsetTimestamp.localDate?_eq_none_iff]
  | _ => simp [toDate?]

theorem toTimestamp?_eq_error_iff : value.toTimestamp? = .error failure ↔
    failure = .breach .localDateOutOfRange ∧
      ∃ moment, value = .timestampTz moment ∧ moment.IsUnreached := by
  cases value with
  | timestampTz moment =>
    simp [toTimestamp?, reached_eq_error_iff, Calendar.OffsetTimestamp.local?,
      Calendar.OffsetTimestamp.localDate?_eq_none_iff]
  | _ => simp [toTimestamp?]

theorem formIn?_eq_error_iff : value.formIn? type = .error failure ↔
    failure = .breach .localDateOutOfRange ∧ value.LeavesCalendar type := by
  cases type with
  | date => simp [formIn?, Except.map_eq_error_iff, toDate?_eq_error_iff, LeavesCalendar]
  | timestamp => simp [formIn?, Except.map_eq_error_iff, toTimestamp?_eq_error_iff, LeavesCalendar]
  | _ => simp [formIn?, LeavesCalendar]

/-- What a conversion comes to: a value, or the error that names the kind of the value and the
type, or a breach where it leaves the calendar. -/
theorem convertTo_cases (value : Value) (type : DataType) :
    (∃ converted, value.convertTo type = .ok converted) ∨
      value.convertTo type = .error (.error (.conversion value.kindName type.text)) ∨
      value.LeavesCalendar type ∧
        value.convertTo type = .error (.breach .localDateOutOfRange) := by
  rw [convertTo]
  split
  · exact .inl ⟨_, rfl⟩
  · split
    · exact .inl ⟨_, rfl⟩
    · exact .inr (.inl rfl)
    · next failed =>
      obtain ⟨rfl, leaves⟩ := formIn?_eq_error_iff.mp failed
      exact .inr (.inr ⟨leaves, rfl⟩)

theorem convertTo_of_leavesCalendar (leaves : value.LeavesCalendar type) :
    value.convertTo type = .error (.breach .localDateOutOfRange) := by
  have failed := formIn?_eq_error_iff.mpr ⟨rfl, leaves⟩
  obtain ⟨_, moment, rfl, _⟩ := leaves
  rw [convertTo, failed]
  rfl

end Value

end RowProjection
