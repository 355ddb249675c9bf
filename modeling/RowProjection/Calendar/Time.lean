import RowProjection.Calendar.Date

namespace RowProjection.Calendar

/-- A time of day. A fraction of a second or more marks a leap second, which follows the second it
is counted with. -/
structure Time where
  seconds : Nat
  nanos : Nat
  seconds_lt : seconds < 86400
  nanos_lt : nanos < 2000000000
  deriving DecidableEq, Repr

namespace Time

def midnight : Time :=
  ⟨0, 0, by decide, by decide⟩

/-- A time from its parts. Leap seconds stand at the end of a minute only. -/
def ofParts? (seconds nanos : Nat) : Option Time :=
  if inRange : seconds < 86400 ∧ nanos < 2000000000 then
    if nanos < 1000000000 ∨ seconds % 60 = 59 then some ⟨seconds, nanos, inRange.1, inRange.2⟩
    else none
  else none

/-- Whether the time lies in a leap second. -/
def isLeap (time : Time) : Bool :=
  1000000000 ≤ time.nanos

/-- The nanoseconds since midnight, where a leap second coincides with the second after it. -/
def sinceMidnight (time : Time) : Nat :=
  time.seconds * 1000000000 + time.nanos

end Time

/-- A date and a time of day. -/
structure Timestamp where
  date : Date
  time : Time
  deriving DecidableEq, Repr

/-- The day number of the first of January 1970. -/
def epochDay : Int := 719163

namespace Timestamp

/-- Seconds since the start of 1970. -/
def epochSeconds (timestamp : Timestamp) : Int :=
  (timestamp.date.day - epochDay) * 86400 + timestamp.time.seconds

/-- The timestamp with a number of seconds since the start of 1970 and a fraction. -/
def ofEpoch? (seconds : Int) (nanos : Nat) : Option Timestamp := do
  let date ← Date.ofDayNumber? (seconds / 86400 + epochDay)
  let time ← Time.ofParts? (seconds % 86400).toNat nanos
  return ⟨date, time⟩

end Timestamp

/-- A date and time in UTC, shown at an offset of less than a day, in seconds east. -/
structure OffsetTimestamp where
  utc : Timestamp
  offset : Int
  offset_lt : offset.natAbs < 86400
  deriving DecidableEq, Repr

namespace OffsetTimestamp

def ofParts? (utc : Timestamp) (offset : Int) : Option OffsetTimestamp :=
  if inRange : offset.natAbs < 86400 then some ⟨utc, offset, inRange⟩ else none

/-- A timestamp read as UTC. -/
def atUtc (timestamp : Timestamp) : OffsetTimestamp :=
  ⟨timestamp, 0, by decide⟩

/-- The local seconds since midnight of the UTC day, below zero or above a day where the offset
leads to another day. -/
def shiftedSeconds (instant : OffsetTimestamp) : Int :=
  instant.utc.time.seconds + instant.offset

/-- The local day number, which may lie just outside the range of dates. -/
def localDay (instant : OffsetTimestamp) : Int :=
  instant.utc.date.day + instant.shiftedSeconds / 86400

/-- The local time of day; the fraction is that of UTC, so a leap second may stand at any second. -/
def localTime (instant : OffsetTimestamp) : Time where
  seconds := (instant.shiftedSeconds % 86400).toNat
  nanos := instant.utc.time.nanos
  seconds_lt := by omega
  nanos_lt := instant.utc.time.nanos_lt

/-- The local date, if it is in range. -/
def localDate? (instant : OffsetTimestamp) : Option Date :=
  Date.ofDayNumber? instant.localDay

/-- The local date and time, if the date is in range. -/
def local? (instant : OffsetTimestamp) : Option Timestamp :=
  instant.localDate?.map fun date => ⟨date, instant.localTime⟩

/-- The instant of a local date and time at an offset, if the UTC date is in range. -/
def ofLocal? (timestamp : Timestamp) (offset : Int) : Option OffsetTimestamp := do
  let seconds : Int := timestamp.time.seconds - offset
  let date ← Date.ofDayNumber? (timestamp.date.day + seconds / 86400)
  let time : Time :=
    ⟨(seconds % 86400).toNat, timestamp.time.nanos, by omega, timestamp.time.nanos_lt⟩
  ofParts? ⟨date, time⟩ offset

/-- Whether two instants are the same moment, whatever their offsets. -/
def sameInstant (left right : OffsetTimestamp) : Bool :=
  left.utc == right.utc

end OffsetTimestamp

end RowProjection.Calendar
