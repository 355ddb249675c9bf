import RowProjection.Proofs.Calendar.Epoch
import RowProjection.Proofs.Record.Kinds
import RowProjection.Proofs.Wire.Reads

namespace RowProjection

open Wire Calendar

namespace Wire

theorem decimalOfWords_decimalFlags (number : Number.Decimal) :
    decimalOfWords (decimalFlags number) number.mantissa = number := by
  obtain ⟨negative, mantissa, scale, mantissa_lt, scale_le⟩ := number
  have sign :
      (decimalFlags ⟨negative, mantissa, scale, mantissa_lt, scale_le⟩ / 0x80000000 % 2 == 1) =
        negative := by
    cases negative <;> simp [decimalFlags] <;> omega
  have place : decimalFlags ⟨negative, mantissa, scale, mantissa_lt, scale_le⟩ / 0x10000 % 32 =
      scale := by
    cases negative <;> simp [decimalFlags] <;> omega
  simp [decimalOfWords, sign, place, scale_le, Nat.mod_eq_of_lt mantissa_lt]

theorem decimalFlags_lt (number : Number.Decimal) : decimalFlags number < 256 ^ 4 := by
  have bound := number.scale_le
  rw [decimalFlags]
  split <;> omega

theorem Codec.readsBack_decimal (number : Number.Decimal) : Codec.decimal.ReadsBack number := by
  intro bytes written
  cases written
  have fits : number.mantissa < 256 ^ 12 := Nat.lt_of_lt_of_le number.mantissa_lt (by decide)
  have mantissa := (Reader.reads_word fits).map (decimalOfWords (decimalFlags number))
  rw [decimalOfWords_decimalFlags] at mantissa
  exact (Reader.reads_word (decimalFlags_lt number)).bind mantissa

end Wire

namespace Codec

theorem readsBack_day (date : Date) : day.ReadsBack date.day := by
  have least := date.least_le
  have greatest := date.le_greatest
  rw [leastDay] at least
  rw [greatestDay] at greatest
  exact Codec.readsBack_signed (by omega) (by omega)

theorem readsBack_nanos (time : Time) : nanos.ReadsBack time.sinceMidnight := by
  have seconds := time.seconds_lt
  have fraction := time.nanos_lt
  have bound : time.sinceMidnight < 2 ^ 47 := by
    rw [Time.sinceMidnight]
    omega
  exact Codec.readsBack_signed (by omega) (by omega)

theorem readsBack_seconds (timestamp : Timestamp) : seconds.ReadsBack timestamp.epochSeconds := by
  have bound := timestamp.epochSeconds_bound
  exact Codec.readsBack_signed (by omega) (by omega)

theorem readsBack_fraction (time : Time) : fraction.ReadsBack time.nanos := by
  have bound := time.nanos_lt
  exact Codec.readsBack_ofWord (by simp only [id]; omega) rfl

theorem readsBack_offset (instant : OffsetTimestamp) : offset.ReadsBack instant.offset := by
  have bound := instant.offset_lt
  exact Codec.readsBack_signed (by omega) (by omega)

end Codec

namespace Value

/-- The leap seconds of timestamps end a minute. -/
def IsRegular : Value → Prop
  | timestamp value => value.time.IsRegular
  | timestampTz value => value.utc.time.IsRegular
  | _ => True

/-- Times are stored as the nanoseconds of a day, which have no room for leap seconds. -/
def IsLeapTime : Value → Prop
  | time value => value.isLeap = true
  | _ => False

end Value

namespace Record

theorem decides_date (date : Date) {bytes : List UInt8}
    (encoded : Codec.day.write date.day = .ok bytes) : readDate.Decides bytes date True := by
  rw [readDate, ← List.append_nil bytes]
  exact (Codec.readsBack_day date bytes encoded).decides_bind
    (Reader.decides_require _ (fun _ => Date.ofDayNumber?_day date) (absurd trivial))

theorem timeAt?_sinceMidnight {time : Time} (short : time.isLeap = false) :
    timeAt? time.sinceMidnight = some time := by
  have fraction : time.nanos < 1000000000 := by simpa [Time.isLeap] using short
  have seconds : time.sinceMidnight / 1000000000 = time.seconds := by
    rw [Time.sinceMidnight]
    omega
  have nanos : time.sinceMidnight % 1000000000 = time.nanos := by
    rw [Time.sinceMidnight]
    omega
  have regular : time.IsRegular := fun leap => absurd (short.symm.trans leap) Bool.false_ne_true
  rw [timeAt?, if_neg (by omega), Int.toNat_natCast, seconds, nanos, Time.ofParts?_self regular]

theorem decides_time {time : Time} (short : time.isLeap = false) {bytes : List UInt8}
    (encoded : Codec.nanos.write time.sinceMidnight = .ok bytes) :
    readTime.Decides bytes time True := by
  rw [readTime, ← List.append_nil bytes]
  exact (Codec.readsBack_nanos time bytes encoded).decides_bind
    (Reader.decides_require _ (fun _ => timeAt?_sinceMidnight short) (absurd trivial))

theorem decides_timestamp (timestamp : Timestamp) {bytes : List UInt8}
    (encoded : Value.encodeTimestamp timestamp = .ok bytes) :
    readTimestamp.Decides bytes timestamp timestamp.time.IsRegular := by
  cases encoded
  rw [readTimestamp, ← List.append_nil (littleEndian 4 _)]
  exact (Codec.readsBack_seconds timestamp _ rfl).decides_bind
    ((Codec.readsBack_fraction timestamp.time _ rfl).decides_bind
      (Reader.decides_require _ timestamp.ofEpoch?_self timestamp.ofEpoch?_eq_none))

theorem decides_timestampTz (instant : OffsetTimestamp) {bytes : List UInt8}
    (encoded : Value.encodeAs .timestampWithTimezone (.timestampTz instant) = .ok bytes) :
    readTimestampTz.Decides bytes instant instant.utc.time.IsRegular := by
  cases encoded
  rw [readTimestampTz, List.append_assoc, ← List.append_nil (littleEndian 4 (wordOfInt _ _))]
  refine (Codec.readsBack_seconds instant.utc _ rfl).decides_bind
    ((Codec.readsBack_fraction instant.utc.time _ rfl).decides_bind
      ((Codec.readsBack_offset instant _ rfl).decides_bind
        (Reader.decides_require _ (fun regular => ?_) fun irregular => ?_)))
  · rw [instant.utc.ofEpoch?_self regular]
    exact dif_pos instant.offset_lt
  · rw [instant.utc.ofEpoch?_eq_none irregular]
    rfl

private theorem decides_of_readsBack {α : Type} {codec : Codec α} {content : α}
    (readsBack : codec.ReadsBack content) (toValue : α → Value) {bytes : List UInt8}
    (encoded : codec.write content = .ok bytes) :
    Reader.Decides (toValue <$> codec.read) bytes (toValue content) True :=
  ((readsBack bytes encoded).map toValue).decides trivial

/-- A payload is read back by the kind it was written for. Records are left to their own reader. -/
theorem decides_payload (nested : Reader Record) {kind : FieldKind} {value : Value}
    {bytes : List UInt8} (held : kind ∈ value.fieldKinds) (scalar : kind ≠ .compact)
    (noLeap : ¬ value.IsLeapTime) (encoded : Value.encodeAs kind value = .ok bytes) :
    (readPayload nested kind).Decides bytes value value.IsRegular := by
  cases value with
  | record schema values => exact absurd (List.mem_singleton.mp held) scalar
  | null | json | map | row | object | bytes => cases held
  | boolean content =>
    rcases List.mem_pair.mp held with rfl | rfl <;>
      exact decides_of_readsBack (Codec.readsBack_boolean content) .boolean encoded
  | tinyInt content =>
    rcases List.mem_pair.mp held with rfl | rfl <;>
      exact decides_of_readsBack (Codec.readsBack_int8 content) .tinyInt encoded
  | smallInt content =>
    rcases List.mem_pair.mp held with rfl | rfl <;>
      exact decides_of_readsBack (Codec.readsBack_int16 content) .smallInt encoded
  | int content =>
    rcases List.mem_pair.mp held with rfl | rfl <;>
      exact decides_of_readsBack (Codec.readsBack_int32 content) .int encoded
  | bigInt content =>
    rcases List.mem_pair.mp held with rfl | rfl <;>
      exact decides_of_readsBack (Codec.readsBack_int64 content) .bigInt encoded
  | real content =>
    rcases List.mem_pair.mp held with rfl | rfl <;>
      exact decides_of_readsBack (Codec.readsBack_single content) .real encoded
  | double content =>
    rcases List.mem_pair.mp held with rfl | rfl <;>
      exact decides_of_readsBack (Codec.readsBack_double content) .double encoded
  | varchar content =>
    cases List.mem_singleton.mp held
    exact decides_of_readsBack (Codec.readsBack_text content) .varchar encoded
  | decimal content =>
    cases List.mem_singleton.mp held
    exact decides_of_readsBack (Codec.readsBack_decimal content) .decimal encoded
  | date content =>
    cases List.mem_singleton.mp held
    exact (decides_date content encoded).map Value.date
  | time content =>
    cases List.mem_singleton.mp held
    exact (decides_time (Bool.eq_false_iff.mpr noLeap) encoded).map Value.time
  | timestamp content =>
    cases List.mem_singleton.mp held
    exact (decides_timestamp content encoded).map Value.timestamp
  | timestampTz content =>
    cases List.mem_singleton.mp held
    exact (decides_timestampTz content encoded).map Value.timestampTz

theorem reads_present_tag : (Reader.word 1).Reads [1] 1 :=
  Reader.reads_word (by decide : 1 < 256 ^ 1)

theorem reads_absent_slot (nested : Reader Record) (field : SchemaField) :
    (readSlot nested field).Reads [0] .null := by
  have tag : (readSlot nested field).Reads ([0] ++ []) .null :=
    (Reader.reads_word (by decide : 0 < 256 ^ 1)).bind (.pure Value.null)
  exact tag

end Record

end RowProjection
