import RowProjection.Proofs.Record.RoundTrip

/-! Leap seconds in fields of times. A time is stored as its nanoseconds since midnight, and a leap
second has as many of them as the second after it. The two share a payload, which is read as the
later one. Behind the last second of a day there is no later one, and the payload is refused. -/

namespace RowProjection

open Wire Calendar

namespace Calendar.Time

variable {time later other : Time}

/-- What a leap second coincides with when nanoseconds are counted: its fraction beyond a second,
in the second after it. There is none at the end of a day. -/
def following? (time : Time) : Option Time :=
  if within : time.seconds + 1 < 86400 then
    some ⟨time.seconds + 1, time.nanos - 1000000000, within, by have := time.nanos_lt; omega⟩
  else none

/-- A leap second, and the time that it coincides with. -/
def CoincidesWith (time later : Time) : Prop :=
  time.isLeap = true ∧ time.following? = some later

/-- A second is counted once more with the fraction of a leap second. -/
theorem coincidesWith_iff : time.CoincidesWith later ↔
    later.seconds = time.seconds + 1 ∧ time.nanos = later.nanos + 1000000000 := by
  constructor
  · rintro ⟨leap, found⟩
    have long := nanos_of_isLeap leap
    rw [following?] at found
    split at found
    · cases found
      exact ⟨rfl, by simp only; omega⟩
    · cases found
  · rintro ⟨seconds, nanos⟩
    have within := later.seconds_lt
    refine ⟨by simp [isLeap, nanos], ?_⟩
    rw [following?, dif_pos (by omega)]
    exact congrArg some (eq_of_parts seconds.symm (by simp only; omega))

theorem CoincidesWith.not_isLeap (coincides : time.CoincidesWith later) :
    later.isLeap = false := by
  have bound := time.nanos_lt
  have nanos := (coincidesWith_iff.mp coincides).2
  simp only [isLeap, decide_eq_false_iff_not]
  omega

/-- The nanoseconds since midnight tell two times apart, unless one is a leap second that coincides
with the other. -/
theorem sinceMidnight_eq_iff : time.sinceMidnight = other.sinceMidnight ↔
    time = other ∨ time.CoincidesWith other ∨ other.CoincidesWith time := by
  have bound := time.nanos_lt
  have limit := other.nanos_lt
  rw [coincidesWith_iff, coincidesWith_iff, sinceMidnight, sinceMidnight]
  constructor
  · intro same
    rcases Nat.lt_trichotomy time.seconds other.seconds with before | together | behind
    · exact .inr (.inl (by omega))
    · exact .inl (eq_of_parts together (by omega))
    · exact .inr (.inr (by omega))
  · rintro (same | coincides | coincides)
    · rw [same]
    · omega
    · omega

/-- The nanoseconds of a leap second are read as the time that it coincides with, if any. -/
theorem timeAt?_of_isLeap (leap : time.isLeap = true) :
    Record.timeAt? time.sinceMidnight = time.following? := by
  have long := nanos_of_isLeap leap
  have bound := time.nanos_lt
  have seconds : time.sinceMidnight / 1000000000 = time.seconds + 1 := by
    rw [sinceMidnight]
    omega
  have nanos : time.sinceMidnight % 1000000000 = time.nanos - 1000000000 := by
    rw [sinceMidnight]
    omega
  rw [Record.timeAt?, if_neg (by omega), Int.toNat_natCast, seconds, nanos, ofParts?, following?]
  by_cases within : time.seconds + 1 < 86400
  · rw [dif_pos ⟨within, by omega⟩, dif_pos within, if_pos (.inl (by omega))]
  · rw [dif_neg fun range => within range.1, dif_neg within]

end Calendar.Time

namespace Record

variable {time later other : Time} {payload : List UInt8}

theorem reads_time (encoded : Codec.nanos.write time.sinceMidnight = .ok payload)
    (found : timeAt? time.sinceMidnight = some later) : readTime.Reads payload later := by
  rw [readTime, ← List.append_nil payload]
  refine (Codec.readsBack_nanos time payload encoded).bind ?_
  rw [found]
  exact .pure later

theorem failsWith_time (encoded : Codec.nanos.write time.sinceMidnight = .ok payload)
    (missing : timeAt? time.sinceMidnight = none) :
    readTime.FailsWith payload (.timeOutOfRange time.sinceMidnight) := by
  rw [readTime, ← List.append_nil payload]
  refine (Codec.readsBack_nanos time payload encoded).failsWith_bind ?_
  rw [missing]
  exact fun _ => rfl

/-- Two times share a payload exactly if they share their nanoseconds since midnight. -/
theorem nanos_write_eq_iff (encoded : Codec.nanos.write time.sinceMidnight = .ok payload) :
    Codec.nanos.write other.sinceMidnight = .ok payload ↔
      time.sinceMidnight = other.sinceMidnight := by
  constructor
  · intro shared
    have first := Codec.readsBack_nanos time payload encoded
    have second := Codec.readsBack_nanos other payload shared
    exact Int.ofNat_inj.mp (first.unique second)
  · intro same
    rwa [← same]

/-- A time is read back from its payload exactly if it is in no leap second. A leap second is read
as the time that it coincides with, or refused at the end of a day. Payloads are shared by leap
seconds and the times that they coincide with, and by no others. -/
theorem time_payload (nested : Reader Record) (time : Time) :
    ∃ payload, Value.encodeAs .time (.time time) = .ok payload ∧
      ((readPayload nested .time).Reads payload (.time time) ↔ time.isLeap = false) ∧
      (∀ later, time.CoincidesWith later →
        (readPayload nested .time).Reads payload (.time later)) ∧
      (time.isLeap = true → time.following? = none →
        (readPayload nested .time).FailsWith payload (.timeOutOfRange time.sinceMidnight)) ∧
      ∀ other : Time, Value.encodeAs .time (.time other) = .ok payload ↔
        time = other ∨ time.CoincidesWith other ∨ other.CoincidesWith time := by
  obtain ⟨payload, encoded⟩ :
      ∃ payload, Codec.nanos.write time.sinceMidnight = .ok payload := ⟨_, rfl⟩
  have moved : ∀ later, time.CoincidesWith later →
      (readPayload nested .time).Reads payload (.time later) := by
    rintro later ⟨leap, found⟩
    exact (reads_time encoded ((Time.timeAt?_of_isLeap leap).trans found)).map Value.time
  have refused : time.isLeap = true → time.following? = none →
      (readPayload nested .time).FailsWith payload (.timeOutOfRange time.sinceMidnight) := by
    intro leap missing
    exact (failsWith_time encoded ((Time.timeAt?_of_isLeap leap).trans missing)).map Value.time
  refine ⟨payload, encoded, ⟨?_, ?_⟩, moved, refused, fun other => ?_⟩
  · intro reads
    by_contra unsettled
    have leap : time.isLeap = true := by simpa using unsettled
    cases found : time.following? with
    | none =>
      have failed := refused leap found []
      rw [reads []] at failed
      cases failed
    | some later =>
      have coincides : time.CoincidesWith later := ⟨leap, found⟩
      have same := reads.unique (moved later coincides)
      cases same
      exact unsettled coincides.not_isLeap
  · intro short
    exact ((decides_time short encoded).reads trivial).map Value.time
  · exact (nanos_write_eq_iff encoded).trans Time.sinceMidnight_eq_iff

section Minutes

/-- A quarter into a leap second behind the first minute of a day. -/
def firstMinute : Time :=
  ⟨59, 1250000000, by decide, by decide⟩

/-- A quarter into the second minute's first second. -/
def secondMinute : Time :=
  ⟨60, 250000000, by decide, by decide⟩

theorem time_payload_minutes : firstMinute.CoincidesWith secondMinute ∧
    yearEnd.time.isLeap = true ∧ yearEnd.time.following? = none ∧
    (∃ payload, Value.encodeAs .time (.time firstMinute) = .ok payload ∧
      (readPayload (read .empty) .time).Reads payload (.time secondMinute)) ∧
    ∃ payload, Value.encodeAs .time (.time yearEnd.time) = .ok payload ∧
      (readPayload (read .empty) .time).FailsWith payload (.timeOutOfRange 86400500000000) := by
  have coincides : firstMinute.CoincidesWith secondMinute := ⟨by decide, by decide⟩
  obtain ⟨first, written, _, moved, _⟩ := time_payload (read .empty) firstMinute
  obtain ⟨last, encoded, _, _, refused, _⟩ := time_payload (read .empty) yearEnd.time
  exact ⟨coincides, by decide, by decide, ⟨first, written, moved secondMinute coincides⟩,
    last, encoded, refused (by decide) (by decide)⟩

/-- A leap second is written as the second after it, and that is what is read. The last one of a
day is written and never read. -/
theorem firstMinute_moved : firstMinute ≠ secondMinute ∧
    (∃ payload, Value.encodeAs .time (.time firstMinute) = .ok payload ∧
      Value.encodeAs .time (.time secondMinute) = .ok payload ∧
      (readPayload (read .empty) .time).run payload = .ok (.time secondMinute, [])) ∧
    ∃ payload, Value.encodeAs .time (.time yearEnd.time) = .ok payload ∧
      (readPayload (read .empty) .time).run payload = .error (.timeOutOfRange 86400500000000) := by
  refine ⟨by decide, ⟨_, rfl, rfl, ?_⟩, _, rfl, ?_⟩
  · have found : timeAt? firstMinute.sinceMidnight = some secondMinute :=
      Time.timeAt?_of_isLeap (by decide)
    have reads := (reads_time rfl found).map Value.time
    exact (congrArg _ (List.append_nil _).symm).trans (reads [])
  · have missing : timeAt? yearEnd.time.sinceMidnight = none := Time.timeAt?_of_isLeap (by decide)
    have fails := (failsWith_time rfl missing).map Value.time
    exact (congrArg _ (List.append_nil _).symm).trans (fails [])

end Minutes

end Record

end RowProjection
