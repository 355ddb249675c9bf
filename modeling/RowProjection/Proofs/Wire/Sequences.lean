import RowProjection.Proofs.Wire.Boundaries

namespace RowProjection.Wire

namespace WireType

/-- All text in a value is shorter than 2^32 bytes. -/
def Fits : (type : WireType) → type.Carrier → Prop
  | text, (value : String) => (Text.Utf8.bytes value).length < 2 ^ 32
  | option _, none => True
  | option inner, some value => inner.Fits value
  | _, _ => True

theorem exists_written_iff (type : WireType) (value : type.Carrier) :
    (∃ bytes, type.codec.write value = .ok bytes) ↔ type.Fits value := by
  induction type with
  | text =>
    simp only [codec, Codec.text, Fits]
    constructor
    · rintro ⟨bytes, written⟩
      split at written
      · next short => exact short
      · cases written
    · intro short
      exact ⟨_, if_pos short⟩
  | option inner ih =>
    cases value with
    | none => exact ⟨fun _ => trivial, fun _ => ⟨[0], rfl⟩⟩
    | some value =>
      rw [Fits, ← ih value]
      constructor
      · rintro ⟨bytes, written⟩
        obtain ⟨payload, encoded, _⟩ := Except.map_eq_ok_iff.mp written
        exact ⟨payload, encoded⟩
      · rintro ⟨payload, encoded⟩
        exact ⟨1 :: payload, Except.map_eq_ok_iff.mpr ⟨payload, encoded, rfl⟩⟩
  | _ => exact ⟨fun _ => trivial, fun _ => ⟨_, rfl⟩⟩

theorem measures (type : WireType) : type.codec.Measures := by
  induction type with
  | uint8 | uint16 | uint32 | uint64 => exact Codec.measures_ofWord _ _ _
  | int8 | int16 | int32 | int64 => exact (Codec.measures_signed _).via
  | single | double | boolean => exact (Codec.measures_ofWord _ _ _).via
  | text => exact Codec.measures_text
  | option inner ih => exact ih.option

theorem readsBack (type : WireType) (value : type.Carrier) : type.codec.ReadsBack value := by
  induction type with
  | uint8 => exact Codec.readsBack_uint8 value
  | uint16 => exact Codec.readsBack_uint16 value
  | uint32 => exact Codec.readsBack_uint32 value
  | uint64 => exact Codec.readsBack_uint64 value
  | int8 => exact Codec.readsBack_int8 value
  | int16 => exact Codec.readsBack_int16 value
  | int32 => exact Codec.readsBack_int32 value
  | int64 => exact Codec.readsBack_int64 value
  | single => exact Codec.readsBack_single value
  | double => exact Codec.readsBack_double value
  | boolean => exact Codec.readsBack_boolean value
  | text => exact Codec.readsBack_text value
  | option inner ih => exact Codec.readsBack_option ih value

theorem bounded (type : WireType) : type.codec.read.Bounded := by
  induction type with
  | uint8 | uint16 | uint32 | uint64 => exact Codec.bounded_ofWord _ _ _
  | int8 | int16 | int32 | int64 => exact Codec.bounded_via (Codec.bounded_signed _)
  | single | double | boolean => exact Codec.bounded_via (Codec.bounded_ofWord _ _ _)
  | text => exact Codec.bounded_text
  | option inner ih => exact Codec.bounded_option ih

end WireType

/-- A value with its type. -/
structure WireValue where
  type : WireType
  content : type.Carrier

namespace WireValue

def Fits (value : WireValue) : Prop :=
  value.type.Fits value.content

def size (value : WireValue) : Nat :=
  value.type.codec.size value.content

/-- Writes values one after another. -/
def writeAll : List WireValue → Except Fault (List UInt8)
  | [] => .ok []
  | value :: rest => do
    let front ← value.type.codec.write value.content
    let back ← writeAll rest
    return front ++ back

/-- Reads a value of each type, one after another. -/
def readAll : List WireType → Reader (List WireValue)
  | [] => return []
  | type :: rest => do
    let content ← type.codec.read
    let others ← readAll rest
    return ⟨type, content⟩ :: others

variable {value : WireValue} {values rest : List WireValue} {bytes : List UInt8}

theorem writeAll_cons_eq_ok :
    writeAll (value :: rest) = .ok bytes ↔
      ∃ front back, value.type.codec.write value.content = .ok front ∧
        writeAll rest = .ok back ∧ front ++ back = bytes := by
  rw [writeAll, Except.both_eq_ok_iff]

theorem exists_writeAll_iff :
    (∃ bytes, writeAll values = .ok bytes) ↔ ∀ value ∈ values, value.Fits := by
  induction values with
  | nil => exact ⟨fun _ => by simp, fun _ => ⟨[], rfl⟩⟩
  | cons value rest ih =>
    rw [List.forall_mem_cons, ← ih, Fits, ← WireType.exists_written_iff]
    constructor
    · rintro ⟨bytes, written⟩
      obtain ⟨front, back, first, further, _⟩ := writeAll_cons_eq_ok.mp written
      exact ⟨⟨front, first⟩, back, further⟩
    · rintro ⟨⟨front, first⟩, back, further⟩
      exact ⟨front ++ back, writeAll_cons_eq_ok.mpr ⟨front, back, first, further, rfl⟩⟩

theorem length_of_writeAll (written : writeAll values = .ok bytes) :
    bytes.length = (values.map size).sum := by
  induction values generalizing bytes with
  | nil =>
    cases written
    rfl
  | cons value rest ih =>
    obtain ⟨front, back, first, further, rfl⟩ := writeAll_cons_eq_ok.mp written
    rw [List.length_append, value.type.measures value.content front first, ih further,
      List.map_cons, List.sum_cons, size]

theorem reads_of_writeAll (written : writeAll values = .ok bytes) :
    (readAll (values.map (·.type))).Reads bytes values := by
  induction values generalizing bytes with
  | nil =>
    cases written
    exact .pure []
  | cons value rest ih =>
    obtain ⟨front, back, first, further, rfl⟩ := writeAll_cons_eq_ok.mp written
    exact (value.type.readsBack value.content front first).bind ((ih further).map (value :: ·))

theorem bounded_readAll (types : List WireType) : (readAll types).Bounded := by
  induction types with
  | nil => exact .pure []
  | cons type rest ih => exact type.bounded.bind fun content => ih.map (mk type content :: ·)

/-- Values of any types are written one after another exactly if no text in them is too long. What
is written has the sizes of the values together; their types alone read the values back off it,
whatever stands behind it, and leave that; and off any fewer bytes they end too early. -/
theorem sequences_read_back (values : List WireValue) :
    ((∃ bytes, writeAll values = .ok bytes) ↔ ∀ value ∈ values, value.Fits) ∧
    ∀ bytes, writeAll values = .ok bytes →
      bytes.length = (values.map size).sum ∧
      (∀ rest, (readAll (values.map (·.type))).run (bytes ++ rest) = .ok (values, rest)) ∧
      ∀ short, short <+: bytes → short ≠ bytes →
        ∃ fault, (readAll (values.map (·.type))).run short = .error fault ∧
          fault.faultClass = .unexpectedEof := by
  refine ⟨exists_writeAll_iff, fun bytes written => ?_⟩
  have reads := reads_of_writeAll written
  exact ⟨length_of_writeAll written, reads, (bounded_readAll _).runsOut reads⟩

section Mixed

/-- A text behind two tags, an absent value within a present one, a negative number, and a float
that is not a number. -/
def mixedValues : List WireValue :=
  [⟨.option (.option .text), some (some "né")⟩, ⟨.option (.option .boolean), some none⟩,
    ⟨.int16, Int16.ofInt (-2)⟩, ⟨.single, ⟨0x7fc00001⟩⟩]

def mixedBytes : List UInt8 :=
  [1, 1, 3, 0, 0, 0, 110, 195, 169, 1, 0, 254, 255, 1, 0, 192, 127]

private theorem writeAll_mixedValues : writeAll mixedValues = .ok mixedBytes :=
  rfl

theorem mixed_read_back :
    writeAll mixedValues = .ok mixedBytes ∧
    (∀ value ∈ mixedValues, value.Fits) ∧
    (mixedValues.map size).sum = 17 ∧
    (readAll (mixedValues.map (·.type))).run (mixedBytes ++ [0, 1]) = .ok (mixedValues, [0, 1]) ∧
    ∃ fault, (readAll (mixedValues.map (·.type))).run (mixedBytes.take 8) = .error fault ∧
      fault.faultClass = .unexpectedEof := by
  obtain ⟨writes, readBack⟩ := sequences_read_back mixedValues
  obtain ⟨length, reads, runsOut⟩ := readBack mixedBytes writeAll_mixedValues
  exact ⟨writeAll_mixedValues, writes.mp ⟨_, writeAll_mixedValues⟩, length.symm, reads [0, 1],
    runsOut _ (List.take_prefix ..) (by decide)⟩

end Mixed

end WireValue

end RowProjection.Wire
