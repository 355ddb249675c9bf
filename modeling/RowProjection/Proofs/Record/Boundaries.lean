import RowProjection.Proofs.Record.Recursion
import RowProjection.Proofs.Wire.Boundaries

/-! Where a record ends. Its fields are read by bounded readers one behind the other, and records
within it by one that is bounded however far the recursion is followed. So a record is told from
the bytes that it is read from, whatever follows them, and no part of them in front is a record. -/

namespace RowProjection

open Wire

namespace Wire.Reader

/-- A reader is bounded if bounded ones agree with it on as many bytes as one likes. -/
theorem Bounded.of_agreesBelow {α : Type} {reader : Reader α}
    (near : ∀ limit, ∃ other : Reader α, other.Bounded ∧ other.AgreesBelow limit reader) :
    reader.Bounded := by
  intro bytes value rest read
  have taken_of (limit : Nat) (long : bytes.length < limit) :
      ∃ (taken : List UInt8) (other : Reader α), other.AgreesBelow limit reader ∧
        bytes = taken ++ rest ∧ other.Reads taken value ∧ other.RunsOut taken := by
    obtain ⟨other, bounded, agrees⟩ := near limit
    obtain ⟨taken, front, reads, runsOut⟩ := bounded _ _ _ ((agrees bytes long).trans read)
    exact ⟨taken, other, agrees, front, reads, runsOut⟩
  obtain ⟨taken, other, agrees, rfl, _, runsOut⟩ := taken_of (bytes.length + 1) (by omega)
  refine ⟨taken, rfl, fun others => ?_, fun short early strict => ?_⟩
  · rw [List.length_append] at taken_of
    obtain ⟨same, wider, agrees, front, reads, _⟩ :=
      taken_of (taken.length + rest.length + others.length + 1) (by omega)
    -- A reader that agrees for longer takes the same bytes, since it leaves the same.
    obtain rfl := List.append_cancel_right front
    rw [← agrees _ (by rw [List.length_append]; omega)]
    exact reads others
  · have bound := early.length_le
    rw [← agrees short (by rw [List.length_append]; omega)]
    exact runsOut short early strict

end Wire.Reader

namespace Record

open Reader

variable {nested : Reader Record}

theorem bounded_readTimestamp : readTimestamp.Bounded :=
  (Codec.bounded_signed 8).bind fun _ => (Codec.bounded_ofWord _ _ _).bind fun _ =>
    bounded_require _ _

theorem bounded_readTimestampTz : readTimestampTz.Bounded :=
  (Codec.bounded_signed 8).bind fun _ => (Codec.bounded_ofWord _ _ _).bind fun _ =>
    (Codec.bounded_signed 4).bind fun _ => bounded_require _ _

theorem bounded_readPayload (bounded : nested.Bounded) (kind : FieldKind) :
    (readPayload nested kind).Bounded := by
  cases kind with
  | string => exact Codec.bounded_text.map _
  | nullableBoolean | boolean => exact Codec.bounded_boolean.map _
  | nullableInt8 | int8 | nullableInt16 | int16 | nullableInt32 | int32 | nullableInt64 | int64 =>
    exact (Codec.bounded_via (Codec.bounded_signed _)).map _
  | nullableFloat32 | float32 | nullableFloat64 | float64 =>
    exact (Codec.bounded_via (Codec.bounded_ofWord _ _ _)).map _
  | decimal => exact Codec.bounded_decimal.map _
  | date => exact ((Codec.bounded_signed 4).bind fun _ => bounded_require _ _).map _
  | time => exact ((Codec.bounded_signed 8).bind fun _ => bounded_require _ _).map _
  | timestamp => exact bounded_readTimestamp.map _
  | timestampWithTimezone => exact bounded_readTimestampTz.map _
  | compact => exact bounded.map _
  | arrayOfString | arrayOfInt64 | arrayOfCompact => exact .throw _

theorem bounded_readSlot (bounded : nested.Bounded) (field : SchemaField) :
    (readSlot nested field).Bounded := by
  refine (bounded_word 1).bind fun tag => ?_
  split
  · exact .pure Value.null
  · exact bounded_readPayload bounded field.kind
  · exact .throw _

theorem bounded_readSlots (bounded : nested.Bounded) (fields : List SchemaField) :
    (readSlots nested fields).Bounded := by
  induction fields with
  | nil => exact .pure []
  | cons field fields ih =>
    exact (bounded_readSlot bounded field).bind fun value => ih.map (value :: ·)

theorem bounded_readRecord (catalog : Catalog) (bounded : nested.Bounded) :
    (readRecord catalog nested).Bounded := by
  refine (Codec.bounded_ofWord _ _ _).bind fun fingerprint => ?_
  cases catalog.findByFingerprint? fingerprint with
  | none => exact .throw _
  | some schema => exact (bounded_readSlots bounded schema.fields).map (Record.mk schema)

theorem bounded_iterate (catalog : Catalog) (bounded : nested.Bounded) (depth : Nat) :
    ((readRecord catalog)^[depth] nested).Bounded := by
  induction depth with
  | zero => exact bounded
  | succ depth ih =>
    rw [Function.iterate_succ_apply']
    exact bounded_readRecord catalog ih

theorem bounded_read (catalog : Catalog) : (read catalog).Bounded :=
  .of_agreesBelow fun limit =>
    ⟨_, bounded_iterate catalog (.throw .unexpectedEnd) limit, agreesBelow_read catalog _ limit⟩

/-- A record is read off a number of bytes in front. It is read off these alone, whatever stands
behind them, and fewer of them end too early. -/
theorem read_self_delimiting (catalog : Catalog) (bytes rest : List UInt8) (record : Record)
    (decoded : (read catalog).run bytes = .ok (record, rest)) :
    ∃ count ≤ bytes.length, rest = bytes.drop count ∧
      (∀ others, (read catalog).run (bytes.take count ++ others) = .ok (record, others)) ∧
      ∀ fewer < count, ∃ fault, (read catalog).run (bytes.take fewer) = .error fault ∧
        fault.faultClass = .unexpectedEof := by
  obtain ⟨taken, rfl, reads, runsOut⟩ := bounded_read catalog bytes record rest decoded
  refine ⟨taken.length, ?_, ?_, fun others => ?_, fun fewer less => ?_⟩
  · rw [List.length_append]
    exact Nat.le_add_right ..
  · rw [List.drop_left]
  · rw [List.take_left]
    exact reads others
  · rw [List.take_append_of_le_length (Nat.le_of_lt less)]
    refine runsOut _ (List.take_prefix fewer taken) fun same => ?_
    have length := congrArg List.length same
    rw [List.length_take] at length
    omega

section Letters

/-- A letter may hold the one that it answers. -/
def letterSchema : Schema :=
  .ofFields "Letter" [.scalar "text" .string, .composite "answers" "Letter"]

def letterCatalog : Catalog :=
  Catalog.empty.declared [.create letterSchema]

def letter : Record :=
  ⟨letterSchema, [.varchar "ja", (empty letterSchema).toValue]⟩

def letterBytes : List UInt8 :=
  littleEndian 4 letterSchema.fingerprint.toNat ++
    1 :: ([2, 0, 0, 0, 106, 97] ++
      1 :: (littleEndian 4 letterSchema.fingerprint.toNat ++ [0, 0] ++ []))

private theorem spelled_letter :
    Spelled letterCatalog letterBytes letter [(.string, [2, 0, 0, 0, 106, 97])] := by
  have found := Catalog.findByFingerprint?_created letterSchema
  have text : FieldKind.Accepts .string [2, 0, 0, 0, 106, 97] (.varchar "ja") :=
    .written (by decide) (by decide) trivial id
  exact .record found (.scalar text (.nested rfl found (.absent (.absent .done)) .done))

theorem read_letter : (read letterCatalog).run (letterBytes ++ [7]) = .ok (letter, [7]) ∧
    (∀ others, (read letterCatalog).run (letterBytes ++ others) = .ok (letter, others)) ∧
    ∀ fewer < letterBytes.length, ∃ fault,
      (read letterCatalog).run (letterBytes.take fewer) = .error fault ∧
        fault.faultClass = .unexpectedEof := by
  have decoded := spelled_letter.read [7]
  obtain ⟨count, bound, rest, reads, runsOut⟩ := read_self_delimiting _ _ _ _ decoded
  obtain rfl : letterBytes.length = count := by
    have length := congrArg List.length rest
    rw [List.length_drop, List.length_append, List.length_singleton] at length
    rw [List.length_append, List.length_singleton] at bound
    omega
  rw [List.take_left] at reads
  refine ⟨decoded, reads, fun fewer less => ?_⟩
  have early := runsOut fewer less
  rwa [List.take_append_of_le_length (Nat.le_of_lt less)] at early

end Letters

end Record

end RowProjection
