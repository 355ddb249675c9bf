import RowProjection.Record.Basic
import RowProjection.Schema.Catalog
import RowProjection.Wire.Decimal

/-!
The binary form of records: the fingerprint of the schema, and for each field in order a tag and,
if the field is not null, a payload of the shape that its kind fixes. Nested records carry their
own fingerprint, by which their schema is found again.
-/

namespace RowProjection

open Wire Calendar

namespace Codec

/-- Days by their number. -/
def day : Codec Int := .signed 4

/-- Times by their nanoseconds since midnight. -/
def nanos : Codec Int := .signed 8

/-- Seconds since the start of 1970. -/
def seconds : Codec Int := .signed 8

/-- A fraction of a second. -/
def fraction : Codec Nat := .ofWord 4 id id

/-- An offset from UTC in seconds. -/
def offset : Codec Int := .signed 4

end Codec

namespace Value

def encodeTimestamp (timestamp : Timestamp) : Except Fault (List UInt8) := do
  let seconds ← Codec.seconds.write timestamp.epochSeconds
  let fraction ← Codec.fraction.write timestamp.time.nanos
  return seconds ++ fraction

/-- The tag of a value, and its payload unless it is null. -/
def tagged (value : Value) (payload : Except Fault (List UInt8)) : Except Fault (List UInt8) :=
  if value.isNull then .ok [0] else payload.map (1 :: ·)

mutual

/-- The payload of a value in a field of a kind. -/
def encodeAs : FieldKind → Value → Except Fault (List UInt8)
  | .string, varchar value => Codec.text.write value
  | .nullableBoolean, boolean value => Codec.boolean.write value
  | .boolean, boolean value => Codec.boolean.write value
  | .nullableInt8, tinyInt value => Codec.int8.write value
  | .int8, tinyInt value => Codec.int8.write value
  | .nullableInt16, smallInt value => Codec.int16.write value
  | .int16, smallInt value => Codec.int16.write value
  | .nullableInt32, int value => Codec.int32.write value
  | .int32, int value => Codec.int32.write value
  | .nullableInt64, bigInt value => Codec.int64.write value
  | .int64, bigInt value => Codec.int64.write value
  | .nullableFloat32, real value => Codec.single.write value
  | .float32, real value => Codec.single.write value
  | .nullableFloat64, double value => Codec.double.write value
  | .float64, double value => Codec.double.write value
  | .decimal, decimal value => Codec.decimal.write value
  | .date, date value => Codec.day.write value.day
  | .time, time value => Codec.nanos.write value.sinceMidnight
  | .timestamp, timestamp value => encodeTimestamp value
  | .timestampWithTimezone, timestampTz value => do
    let instant ← encodeTimestamp value.utc
    let offset ← Codec.offset.write value.offset
    return instant ++ offset
  | .compact, record schema values => do
    let fingerprint ← Codec.uint32.write schema.fingerprint
    let slots ← encodeSlots schema.fields values
    return fingerprint ++ slots
  | kind, value => .error (.wrongKind value.kindName kind)

/-- The tags and payloads of the values of a record. -/
def encodeSlots (fields : List SchemaField) : List Value → Except Fault (List UInt8)
  | [] => .ok []
  | value :: rest =>
    match fields with
    | [] => .ok []
    | field :: more => do
      let payload ← tagged value (encodeAs field.kind value)
      let others ← encodeSlots more rest
      return payload ++ others

end

mutual

/-- The length of the payload of a value; a value without a payload counts nothing. -/
def payloadSize : Value → Nat
  | varchar value => Codec.text.size value
  | boolean value => Codec.boolean.size value
  | tinyInt value => Codec.int8.size value
  | smallInt value => Codec.int16.size value
  | int value => Codec.int32.size value
  | bigInt value => Codec.int64.size value
  | real value => Codec.single.size value
  | double value => Codec.double.size value
  | decimal value => Codec.decimal.size value
  | date value => Codec.day.size value.day
  | time value => Codec.nanos.size value.sinceMidnight
  | timestamp _ => 12
  | timestampTz _ => 16
  | record _ values => 4 + slotsSize values
  | null | json _ | map _ | row _ | object _ _ | bytes _ => 0

def slotsSize : List Value → Nat
  | [] => 0
  | value :: rest => 1 + payloadSize value + slotsSize rest

end

end Value

namespace Record

/-- The bytes of a record. -/
def encode (record : Record) : Except Fault (List UInt8) :=
  record.toValue.encodeAs .compact

/-- The length of the encoding, told from the values alone. -/
def size (record : Record) : Nat :=
  record.toValue.payloadSize

/-- Reads a date by its day number. -/
def readDate : Reader Date := do
  let day ← Codec.day.read
  Reader.require (Date.ofDayNumber? day) (.dateOutOfRange day)

/-- The time of day at a number of nanoseconds since midnight, never in a leap second. -/
def timeAt? (nanos : Int) : Option Time :=
  if nanos < 0 then none
  else Time.ofParts? (nanos.toNat / 1000000000) (nanos.toNat % 1000000000)

def readTime : Reader Time := do
  let nanos ← Codec.nanos.read
  Reader.require (timeAt? nanos) (.timeOutOfRange nanos)

def readTimestamp : Reader Timestamp := do
  let seconds ← Codec.seconds.read
  let fraction ← Codec.fraction.read
  Reader.require (Timestamp.ofEpoch? seconds fraction) (.timestampOutOfRange seconds)

def readTimestampTz : Reader OffsetTimestamp := do
  let seconds ← Codec.seconds.read
  let fraction ← Codec.fraction.read
  let offset ← Codec.offset.read
  Reader.require ((Timestamp.ofEpoch? seconds fraction).bind (OffsetTimestamp.ofParts? · offset))
    (.offsetTimestampOutOfRange seconds offset)

/-- Reads the payload of a field. `nested` reads the record of a composite field. -/
def readPayload (nested : Reader Record) : FieldKind → Reader Value
  | .string => .varchar <$> Codec.text.read
  | .nullableBoolean | .boolean => .boolean <$> Codec.boolean.read
  | .nullableInt8 | .int8 => .tinyInt <$> Codec.int8.read
  | .nullableInt16 | .int16 => .smallInt <$> Codec.int16.read
  | .nullableInt32 | .int32 => .int <$> Codec.int32.read
  | .nullableInt64 | .int64 => .bigInt <$> Codec.int64.read
  | .nullableFloat32 | .float32 => .real <$> Codec.single.read
  | .nullableFloat64 | .float64 => .double <$> Codec.double.read
  | .decimal => .decimal <$> Codec.decimal.read
  | .date => .date <$> readDate
  | .time => .time <$> readTime
  | .timestamp => .timestamp <$> readTimestamp
  | .timestampWithTimezone => .timestampTz <$> readTimestampTz
  | .compact => toValue <$> nested
  | .arrayOfString => throw (.noPayload .arrayOfString)
  | .arrayOfInt64 => throw (.noPayload .arrayOfInt64)
  | .arrayOfCompact => throw (.noPayload .arrayOfCompact)

/-- Reads the tag of a field and its payload, if there is one. -/
def readSlot (nested : Reader Record) (field : SchemaField) : Reader Value := do
  match ← Reader.word 1 with
  | 0 => return .null
  | 1 => readPayload nested field.kind
  | tag => throw (.invalidOptionTag tag)

/-- Reads the fields of a record in order. -/
def readSlots (nested : Reader Record) : List SchemaField → Reader (List Value)
  | [] => return []
  | field :: rest => do
    let value ← readSlot nested field
    let others ← readSlots nested rest
    return value :: others

/-- Reads a record with at most `depth` records inside each other. -/
def readNested (catalog : Catalog) : Nat → Reader Record
  | 0 => throw .unexpectedEnd
  | depth + 1 => do
    let fingerprint ← Codec.uint32.read
    match catalog.findByFingerprint? fingerprint with
    | none => throw (.unknownFingerprint fingerprint)
    | some schema =>
      let values ← readSlots (readNested catalog depth) schema.fields
      return ⟨schema, values⟩

/-- Reads a record. Every record takes bytes for its fingerprint, so the depth of nesting is
bounded by the length of the input. -/
def read (catalog : Catalog) : Reader Record := fun bytes =>
  readNested catalog bytes.length bytes

/-- The record in front of a byte sequence. -/
def decode (catalog : Catalog) (bytes : List UInt8) : Except Fault Record :=
  ((read catalog).run bytes).map (·.1)

/-- The encoding of a record, or the error of a record that has none. -/
def toBytes (record : Record) : Except Error (List UInt8) :=
  record.encode.mapError .encoding

/-- The record in front of a byte sequence, or the error of bytes that hold none. -/
def ofBytes (catalog : Catalog) (bytes : List UInt8) : Except Error Record :=
  (decode catalog bytes).mapError .encoding

end Record

end RowProjection
