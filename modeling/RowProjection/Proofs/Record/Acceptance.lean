import RowProjection.Proofs.Record.Payload
import RowProjection.Proofs.Wire.Takes

namespace RowProjection

open Wire Calendar

namespace FieldKind

/-- The bytes that are read as a value in a scalar field of a kind. -/
inductive Accepts : FieldKind → List UInt8 → Value → Prop where
  /-- A value in the form that it is written in. -/
  | written {kind : FieldKind} {payload : List UInt8} {value : Value} (scalar : kind ≠ .compact)
      (encoded : value.encodeAs kind = .ok payload) (regular : value.IsRegular)
      (noLeap : ¬ value.IsLeapTime) : Accepts kind payload value
  /-- False in any byte but one. -/
  | anyFalse {kind : FieldKind} {byte : UInt8} (truth : kind = .nullableBoolean ∨ kind = .boolean)
      (other : byte ≠ 1) : Accepts kind [byte] (.boolean false)
  /-- A decimal in any words. -/
  | anyDecimal {flags mantissa : Nat} (flags_lt : flags < 256 ^ 4)
      (mantissa_lt : mantissa < 256 ^ 12) :
      Accepts .decimal (littleEndian 4 flags ++ littleEndian 12 mantissa)
        (.decimal (decimalOfWords flags mantissa))

/-- The payloads in which nothing is passed over: truth values are zero or one, and the flags of
decimals hold a sign and a scale of at most 28. -/
def IsExact : FieldKind → List UInt8 → Prop
  | .nullableBoolean, payload | .boolean, payload => payload = [0] ∨ payload = [1]
  | .decimal, payload => ∃ number : Number.Decimal,
      payload.take 4 = littleEndian 4 (decimalFlags number)
  | _, _ => True

variable {kind : FieldKind} {payload bytes rest : List UInt8} {value : Value}
  {nested : Reader Record}

section Reading

private theorem accepts_of_writesBack {α : Type} {codec : Codec α}
    (writesBack : codec.WritesBack) (toValue : α → Value) (scalar : kind ≠ .compact)
    (encodes : ∀ content, (toValue content).encodeAs kind = codec.write content)
    (plain : ∀ content, (toValue content).IsRegular ∧ ¬ (toValue content).IsLeapTime)
    (read : (toValue <$> codec.read).run bytes = .ok (value, rest)) :
    ∃ payload, bytes = payload ++ rest ∧ kind.Accepts payload value := by
  obtain ⟨content, first, rfl⟩ := Reader.map_eq_ok_iff.mp read
  obtain ⟨payload, written, front⟩ := writesBack _ _ _ first
  exact ⟨payload, front, .written scalar ((encodes content).trans written) (plain content).1
    (plain content).2⟩

private theorem accepts_of_readBoolean (truth : kind = .nullableBoolean ∨ kind = .boolean)
    (read : (Value.boolean <$> Codec.boolean.read).run bytes = .ok (value, rest)) :
    ∃ payload, bytes = payload ++ rest ∧ kind.Accepts payload value := by
  obtain ⟨content, first, rfl⟩ := Reader.map_eq_ok_iff.mp read
  change ((· == 1) <$> Codec.uint8.read).run bytes = _ at first
  obtain ⟨byte, second, rfl⟩ := Reader.map_eq_ok_iff.mp first
  obtain ⟨payload, written, front⟩ := Codec.writesBack_uint8 _ _ _ second
  cases written
  refine ⟨_, front, ?_⟩
  by_cases one : byte = 1
  · subst one
    rcases truth with rfl | rfl <;> exact .written (by decide) rfl trivial id
  · have none : (byte == 1) = false := by simpa using one
    have whole : littleEndian 1 byte.toNat = [byte] := by simp [littleEndian]
    rw [none, whole]
    exact .anyFalse truth one

private theorem accepts_of_readDecimal
    (read : (Value.decimal <$> Codec.decimal.read).run bytes = .ok (value, rest)) :
    ∃ payload, bytes = payload ++ rest ∧ Accepts .decimal payload value := by
  obtain ⟨number, first, rfl⟩ := Reader.map_eq_ok_iff.mp read
  obtain ⟨flags, remaining, second, third⟩ := Reader.bind_eq_ok_iff.mp first
  obtain ⟨mantissa, fourth, rfl⟩ := Reader.map_eq_ok_iff.mp third
  obtain ⟨flags_lt, rfl⟩ := Reader.word_eq_ok second
  obtain ⟨mantissa_lt, rfl⟩ := Reader.word_eq_ok fourth
  exact ⟨_, (List.append_assoc ..).symm, .anyDecimal flags_lt mantissa_lt⟩

/-- A signed number and what it stands for are told by the bytes in front. -/
private theorem written_of_required {α : Type} {width : Nat} {find? : Int → Option α}
    {fault : Int → Fault} {toValue : α → Value}
    (read : (toValue <$> do
      let number ← (Codec.signed width).read
      Reader.require (find? number) (fault number)).run bytes = .ok (value, rest)) :
    ∃ number content payload, find? number = some content ∧ value = toValue content ∧
      (Codec.signed width).write number = .ok payload ∧ bytes = payload ++ rest := by
  obtain ⟨content, first, rfl⟩ := Reader.map_eq_ok_iff.mp read
  obtain ⟨number, remaining, second, third⟩ := Reader.bind_eq_ok_iff.mp first
  obtain ⟨found, rfl⟩ := Reader.require_eq_ok third
  obtain ⟨payload, written, front⟩ := Codec.writesBack_signed width _ _ _ second
  exact ⟨number, content, payload, found, rfl, written, front⟩

private theorem accepts_of_readDate
    (read : (Value.date <$> Record.readDate).run bytes = .ok (value, rest)) :
    ∃ payload, bytes = payload ++ rest ∧ Accepts .date payload value := by
  obtain ⟨day, date, payload, found, rfl, written, front⟩ := written_of_required read
  rw [← Date.day_of_ofDayNumber? found] at written
  exact ⟨payload, front, .written (by decide) written trivial id⟩

theorem sinceMidnight_of_timeAt? {nanos : Int} {time : Time}
    (found : Record.timeAt? nanos = some time) :
    time.sinceMidnight = nanos ∧ ¬ time.isLeap = true := by
  rw [Record.timeAt?] at found
  split at found
  · cases found
  · obtain ⟨seconds, fraction, _⟩ := Time.of_ofParts? found
    rw [Time.sinceMidnight, Time.isLeap, seconds, fraction, decide_eq_true_eq]
    omega

private theorem accepts_of_readTime
    (read : (Value.time <$> Record.readTime).run bytes = .ok (value, rest)) :
    ∃ payload, bytes = payload ++ rest ∧ Accepts .time payload value := by
  obtain ⟨nanos, time, payload, found, rfl, written, front⟩ := written_of_required read
  obtain ⟨same, noLeap⟩ := sinceMidnight_of_timeAt? found
  rw [← same] at written
  exact ⟨payload, front, .written (by decide) written trivial noLeap⟩

private theorem writesBack_fraction : Codec.fraction.WritesBack :=
  Codec.writesBack_ofWord fun _ _ => rfl

private theorem accepts_of_readTimestamp
    (read : (Value.timestamp <$> Record.readTimestamp).run bytes = .ok (value, rest)) :
    ∃ payload, bytes = payload ++ rest ∧ Accepts .timestamp payload value := by
  obtain ⟨timestamp, first, rfl⟩ := Reader.map_eq_ok_iff.mp read
  obtain ⟨seconds, remaining, second, third⟩ := Reader.bind_eq_ok_iff.mp first
  obtain ⟨fraction, behind, fourth, fifth⟩ := Reader.bind_eq_ok_iff.mp third
  obtain ⟨found, rfl⟩ := Reader.require_eq_ok fifth
  obtain ⟨front, wroteSeconds, rfl⟩ := Codec.writesBack_signed 8 _ _ _ second
  obtain ⟨back, wroteFraction, rfl⟩ := writesBack_fraction _ _ _ fourth
  obtain ⟨sameSeconds, sameFraction, regular⟩ := Timestamp.of_ofEpoch? found
  cases wroteSeconds
  cases wroteFraction
  refine ⟨_, (List.append_assoc ..).symm, .written (by decide) ?_ regular id⟩
  rw [← sameSeconds, ← sameFraction]
  rfl

private theorem accepts_of_readTimestampTz
    (read : (Value.timestampTz <$> Record.readTimestampTz).run bytes = .ok (value, rest)) :
    ∃ payload, bytes = payload ++ rest ∧ Accepts .timestampWithTimezone payload value := by
  obtain ⟨instant, first, rfl⟩ := Reader.map_eq_ok_iff.mp read
  obtain ⟨seconds, remaining, second, third⟩ := Reader.bind_eq_ok_iff.mp first
  obtain ⟨fraction, behind, fourth, fifth⟩ := Reader.bind_eq_ok_iff.mp third
  obtain ⟨offset, last, sixth, seventh⟩ := Reader.bind_eq_ok_iff.mp fifth
  obtain ⟨found, rfl⟩ := Reader.require_eq_ok seventh
  obtain ⟨utc, moment, zoned⟩ := Option.bind_eq_some_iff.mp found
  obtain ⟨front, wroteSeconds, rfl⟩ := Codec.writesBack_signed 8 _ _ _ second
  obtain ⟨middle, wroteFraction, rfl⟩ := writesBack_fraction _ _ _ fourth
  obtain ⟨back, wroteOffset, rfl⟩ := Codec.writesBack_signed 4 _ _ _ sixth
  obtain ⟨sameSeconds, sameFraction, regular⟩ := Timestamp.of_ofEpoch? moment
  rw [OffsetTimestamp.ofParts?] at zoned
  split at zoned
  · cases zoned
    cases wroteSeconds
    cases wroteFraction
    cases wroteOffset
    refine ⟨_, by rw [← List.append_assoc, ← List.append_assoc], ?_⟩
    refine .written (by decide) ?_ regular id
    rw [← sameSeconds, ← sameFraction]
    rfl
  · cases zoned

/-- What is read in a scalar field is accepted there. -/
theorem accepts_of_readPayload (scalar : kind ≠ .compact)
    (read : (Record.readPayload nested kind).run bytes = .ok (value, rest)) :
    ∃ payload, bytes = payload ++ rest ∧ kind.Accepts payload value := by
  cases kind with
  | compact => exact absurd rfl scalar
  | arrayOfString | arrayOfInt64 | arrayOfCompact => cases read
  | nullableBoolean => exact accepts_of_readBoolean (.inl rfl) read
  | boolean => exact accepts_of_readBoolean (.inr rfl) read
  | decimal => exact accepts_of_readDecimal read
  | date => exact accepts_of_readDate read
  | time => exact accepts_of_readTime read
  | timestamp => exact accepts_of_readTimestamp read
  | timestampWithTimezone => exact accepts_of_readTimestampTz read
  | string =>
    exact accepts_of_writesBack Codec.writesBack_text .varchar scalar (fun _ => rfl)
      (fun _ => ⟨trivial, id⟩) read
  | nullableInt8 | int8 =>
    exact accepts_of_writesBack Codec.writesBack_int8 .tinyInt scalar (fun _ => rfl)
      (fun _ => ⟨trivial, id⟩) read
  | nullableInt16 | int16 =>
    exact accepts_of_writesBack Codec.writesBack_int16 .smallInt scalar (fun _ => rfl)
      (fun _ => ⟨trivial, id⟩) read
  | nullableInt32 | int32 =>
    exact accepts_of_writesBack Codec.writesBack_int32 .int scalar (fun _ => rfl)
      (fun _ => ⟨trivial, id⟩) read
  | nullableInt64 | int64 =>
    exact accepts_of_writesBack Codec.writesBack_int64 .bigInt scalar (fun _ => rfl)
      (fun _ => ⟨trivial, id⟩) read
  | nullableFloat32 | float32 =>
    exact accepts_of_writesBack Codec.writesBack_single .real scalar (fun _ => rfl)
      (fun _ => ⟨trivial, id⟩) read
  | nullableFloat64 | float64 =>
    exact accepts_of_writesBack Codec.writesBack_double .double scalar (fun _ => rfl)
      (fun _ => ⟨trivial, id⟩) read

end Reading

/-- The length of a scalar payload is told from the value. -/
theorem length_of_encodeAs (scalar : kind ≠ .compact)
    (encoded : value.encodeAs kind = .ok payload) : payload.length = value.payloadSize := by
  have held := Value.mem_fieldKinds_of_encodeAs encoded
  cases value with
  | record => exact absurd (List.mem_singleton.mp held) scalar
  | null | json | map | row | object | bytes => cases held
  | boolean content =>
    rcases List.mem_pair.mp held with rfl | rfl <;>
      exact Codec.measures_boolean content payload encoded
  | tinyInt | smallInt | int | bigInt =>
    rcases List.mem_pair.mp held with rfl | rfl <;>
      exact (Codec.measures_signed _).via _ payload encoded
  | real | double =>
    rcases List.mem_pair.mp held with rfl | rfl <;>
      exact (Codec.measures_ofWord _ _ _).via _ payload encoded
  | varchar text =>
    cases List.mem_singleton.mp held
    exact Codec.measures_text text payload encoded
  | date | time | decimal | timestamp | timestampTz =>
    cases List.mem_singleton.mp held
    cases encoded
    simp [Value.payloadSize, Codec.day, Codec.nanos, Codec.decimal, Codec.signed, Codec.ofWord]

/-- Nothing is passed over in what is written. -/
theorem isExact_of_encodeAs (encoded : value.encodeAs kind = .ok payload) :
    kind.IsExact payload := by
  have held := Value.mem_fieldKinds_of_encodeAs encoded
  cases kind with
  | nullableBoolean | boolean =>
    cases value with
    | boolean content =>
      cases encoded
      cases content
      · exact .inl rfl
      · exact .inr rfl
    | _ => simp [Value.fieldKinds] at held
  | decimal =>
    cases value with
    | decimal number =>
      cases encoded
      exact ⟨number, List.take_left' (length_littleEndian ..)⟩
    | _ => simp [Value.fieldKinds] at held
  | _ => trivial

namespace Accepts

theorem scalar (accepted : kind.Accepts payload value) : kind ≠ .compact := by
  cases accepted with
  | written scalar => exact scalar
  | anyFalse truth => rcases truth with rfl | rfl <;> decide
  | anyDecimal => decide

theorem held (accepted : kind.Accepts payload value) : kind ∈ value.fieldKinds := by
  cases accepted with
  | written _ encoded => exact Value.mem_fieldKinds_of_encodeAs encoded
  | anyFalse truth => exact List.mem_pair.mpr truth
  | anyDecimal => exact List.mem_singleton.mpr rfl

theorem noLeap (accepted : kind.Accepts payload value) : ¬ value.IsLeapTime := by
  cases accepted with
  | written _ _ _ noLeap => exact noLeap
  | anyFalse => exact id
  | anyDecimal => exact id

/-- What is accepted is read. -/
theorem reads (accepted : kind.Accepts payload value) (nested : Reader Record) :
    (Record.readPayload nested kind).Reads payload value := by
  cases accepted with
  | written scalar encoded regular noLeap =>
    have held := (Accepts.written scalar encoded regular noLeap).held
    exact (Record.decides_payload nested held scalar noLeap encoded).reads regular
  | @anyFalse _ byte truth other =>
    have whole : littleEndian 1 byte.toNat = [byte] := by simp [littleEndian]
    have none : (byte == 1) = false := by simpa using other
    have read := ((Codec.readsBack_uint8 byte _ rfl).map (· == 1)).map Value.boolean
    rw [whole, none] at read
    rcases truth with rfl | rfl <;> exact read
  | anyDecimal flags_lt mantissa_lt =>
    exact ((Reader.reads_word flags_lt).bind
      ((Reader.reads_word mantissa_lt).map (decimalOfWords _))).map Value.decimal

theorem length_eq (accepted : kind.Accepts payload value) :
    payload.length = value.payloadSize := by
  cases accepted with
  | written scalar encoded => exact length_of_encodeAs scalar encoded
  | anyFalse => rfl
  | anyDecimal => simp [Value.payloadSize, Codec.decimal]

/-- What is accepted is written in one form, which is accepted as well. It is the form that was
accepted exactly if nothing was passed over in that. -/
theorem exists_written (accepted : kind.Accepts payload value) :
    ∃ exact, value.encodeAs kind = .ok exact ∧ kind.Accepts exact value ∧
      (exact = payload ↔ kind.IsExact payload) := by
  cases accepted with
  | written scalar encoded regular noLeap =>
    exact ⟨payload, encoded, .written scalar encoded regular noLeap,
      iff_of_true rfl (isExact_of_encodeAs encoded)⟩
  | @anyFalse _ byte truth other =>
    refine ⟨[0], ?_, .anyFalse truth (by decide), ?_⟩
    · rcases truth with rfl | rfl <;> rfl
    · have exact_iff : kind.IsExact [byte] ↔ [byte] = [0] ∨ [byte] = [1] := by
        rcases truth with rfl | rfl <;> rfl
      rw [exact_iff]
      simp [other, eq_comm]
  | @anyDecimal flags mantissa flags_lt mantissa_lt =>
    generalize whole : decimalOfWords flags mantissa = number
    have exact_lt : number.mantissa < 256 ^ 12 := number.mantissa_lt
    have encoded : (Value.decimal number).encodeAs .decimal =
      .ok (littleEndian 4 (decimalFlags number) ++ littleEndian 12 number.mantissa) := rfl
    refine ⟨_, encoded, .written (by decide) encoded trivial id, ?_, ?_⟩
    · intro same
      exact ⟨number, by rw [← same]; exact List.take_left' (length_littleEndian ..)⟩
    · rintro ⟨other, front⟩
      rw [List.take_left' (length_littleEndian ..)] at front
      -- Sign and scale are those of the other decimal, the mantissa is taken over.
      have flags_eq : flags = decimalFlags other :=
        littleEndian_injective flags_lt (decimalFlags_lt other) front
      have parts := decimalOfWords_decimalFlags
        ⟨other.negative, mantissa, other.scale, mantissa_lt, other.scale_le⟩
      have same : decimalOfWords flags mantissa =
          ⟨other.negative, mantissa, other.scale, mantissa_lt, other.scale_le⟩ := by
        rw [flags_eq]
        exact parts
      rw [← whole, same, flags_eq]
      rfl

end Accepts

end FieldKind

end RowProjection
