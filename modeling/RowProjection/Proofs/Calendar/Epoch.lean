import Mathlib.Algebra.Ring.Nat
import RowProjection.Calendar.Time

namespace RowProjection.Calendar

theorem Time.eq_of_parts {time other : Time} (seconds : time.seconds = other.seconds)
    (nanos : time.nanos = other.nanos) : time = other := by
  cases time
  cases other
  cases seconds
  cases nanos
  rfl

theorem Time.nanos_of_isLeap {time : Time} (leap : time.isLeap = true) :
    1000000000 ≤ time.nanos := by
  simpa [isLeap] using leap

/-- A leap second at the end of a minute, or no leap second. -/
def Time.IsRegular (time : Time) : Prop :=
  time.isLeap = true → time.seconds % 60 = 59

theorem Time.ofParts?_self {time : Time} (regular : time.IsRegular) :
    ofParts? time.seconds time.nanos = some time := by
  have place : time.nanos < 1000000000 ∨ time.seconds % 60 = 59 := by
    by_cases leap : time.isLeap = true
    · exact .inr (regular leap)
    · exact .inl (by simpa [isLeap] using leap)
  rw [ofParts?, dif_pos ⟨time.seconds_lt, time.nanos_lt⟩, if_pos place]

theorem Time.ofParts?_eq_none {time : Time} (irregular : ¬ time.IsRegular) :
    ofParts? time.seconds time.nanos = none := by
  have place : ¬ (time.nanos < 1000000000 ∨ time.seconds % 60 = 59) := by
    rintro (short | ends)
    · exact irregular fun leap => by simp [isLeap] at leap; omega
    · exact irregular fun _ => ends
  rw [ofParts?, dif_pos ⟨time.seconds_lt, time.nanos_lt⟩, if_neg place]

/-- A time that was put together has the parts it was asked for. -/
theorem Time.of_ofParts? {seconds nanos : Nat} {time : Time}
    (found : ofParts? seconds nanos = some time) :
    time.seconds = seconds ∧ time.nanos = nanos ∧ time.IsRegular := by
  rw [ofParts?] at found
  split at found
  · split at found
    · next place =>
      cases found
      refine ⟨rfl, rfl, fun leap => place.resolve_left ?_⟩
      simpa [isLeap] using leap
    · cases found
  · cases found

theorem Date.day_of_ofDayNumber? {day : Int} {date : Date}
    (found : ofDayNumber? day = some date) : date.day = day := by
  rw [ofDayNumber?] at found
  split at found
  · cases found
    rfl
  · cases found

namespace Timestamp

/-- A timestamp stands at the second and the fraction that it was asked for. -/
theorem of_ofEpoch? {seconds : Int} {nanos : Nat} {timestamp : Timestamp}
    (found : ofEpoch? seconds nanos = some timestamp) :
    timestamp.epochSeconds = seconds ∧ timestamp.time.nanos = nanos ∧
      timestamp.time.IsRegular := by
  obtain ⟨date, dated, found⟩ := Option.bind_eq_some_iff.mp found
  obtain ⟨time, timed, found⟩ := Option.bind_eq_some_iff.mp found
  cases found
  have day := Date.day_of_ofDayNumber? dated
  obtain ⟨second, fraction, regular⟩ := Time.of_ofParts? timed
  refine ⟨?_, fraction, regular⟩
  simp only [epochSeconds, day, second]
  omega

variable (timestamp : Timestamp)

theorem ofEpoch?_epochSeconds (nanos : Nat) :
    ofEpoch? timestamp.epochSeconds nanos =
      (Time.ofParts? timestamp.time.seconds nanos).map fun time => ⟨timestamp.date, time⟩ := by
  have below := timestamp.time.seconds_lt
  have day : timestamp.epochSeconds / 86400 + epochDay = timestamp.date.day := by
    rw [epochSeconds]
    omega
  have seconds : (timestamp.epochSeconds % 86400).toNat = timestamp.time.seconds := by
    rw [epochSeconds]
    omega
  rw [ofEpoch?, day, seconds, Date.ofDayNumber?_day]
  cases Time.ofParts? timestamp.time.seconds nanos <;> rfl

theorem ofEpoch?_self (regular : timestamp.time.IsRegular) :
    ofEpoch? timestamp.epochSeconds timestamp.time.nanos = some timestamp := by
  rw [ofEpoch?_epochSeconds, Time.ofParts?_self regular]
  rfl

theorem ofEpoch?_eq_none (irregular : ¬ timestamp.time.IsRegular) :
    ofEpoch? timestamp.epochSeconds timestamp.time.nanos = none := by
  rw [ofEpoch?_epochSeconds, Time.ofParts?_eq_none irregular]
  rfl

/-- The calendar stays far below the seconds that fit 64 bits. -/
theorem epochSeconds_bound : timestamp.epochSeconds.natAbs < 2 ^ 44 := by
  have below := timestamp.time.seconds_lt
  have least := timestamp.date.least_le
  have greatest := timestamp.date.le_greatest
  rw [leastDay] at least
  rw [greatestDay] at greatest
  rw [epochSeconds, epochDay]
  omega

end Timestamp

end RowProjection.Calendar
