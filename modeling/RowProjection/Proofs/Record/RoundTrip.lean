import RowProjection.Proofs.Outcome
import RowProjection.Proofs.Record.Payload

namespace RowProjection

open Wire

namespace Record

/-- The catalog finds the schemas of the record and of all records within it by fingerprint. -/
def KnownTo (catalog : Catalog) (record : Record) : Prop :=
  record.toValue.Throughout <| Value.OnRecord fun inner =>
    catalog.findByFingerprint? inner.schema.fingerprint = some inner.schema

/-- All timestamps within the record are regular. -/
def HasRegularTimestamps (record : Record) : Prop :=
  record.toValue.Throughout Value.IsRegular

/-- What a record needs to be written, and to be found again under a catalog. -/
structure Storable (catalog : Catalog) (record : Record) : Prop where
  kinded : record.WellKinded
  textsFit : record.TextsFit
  noLeapTime : record.toValue.Throughout fun value => ¬ value.IsLeapTime
  known : record.KnownTo catalog

/-- Writes records one after another. -/
def encodeAll : List Record → Except Fault (List UInt8)
  | [] => .ok []
  | record :: rest => do
    let front ← record.encode
    let back ← encodeAll rest
    return front ++ back

/-- Reads so many records one after another. -/
def readAll (catalog : Catalog) : Nat → Reader (List Record)
  | 0 => return []
  | count + 1 => do
    let record ← read catalog
    let others ← readAll catalog count
    return record :: others

section Slots

variable {nested : Reader Record} {limit : Nat}

/-- Payloads of a value that are no longer than the limit are read back. -/
def DecidesPayloads (nested : Reader Record) (limit : Nat) (value : Value) : Prop :=
  ∀ kind ∈ value.fieldKinds, ∀ payload, value.encodeAs kind = .ok payload →
    payload.length ≤ limit →
      (readPayload nested kind).Decides payload value (value.Throughout Value.IsRegular)

theorem decides_slot {field : SchemaField} {value : Value} {bytes : List UInt8}
    (held : field.Holds value) (payloads : DecidesPayloads nested limit value)
    (encoded : value.tagged (value.encodeAs field.kind) = .ok bytes)
    (short : bytes.length ≤ limit) :
    (readSlot nested field).Decides bytes value (value.Throughout Value.IsRegular) := by
  rcases held with null | held
  · subst null
    cases encoded
    exact (reads_absent_slot nested field).decides ((Value.throughout_iff_self rfl).mpr trivial)
  · rw [Value.tagged, Value.isNull_of_mem_fieldKinds held, if_neg Bool.false_ne_true,
      Except.map_eq_ok_iff] at encoded
    obtain ⟨payload, written, same⟩ := encoded
    subst same
    have fits : payload.length ≤ limit := by
      rw [List.length_cons] at short
      omega
    exact reads_present_tag.decides_bind (payloads field.kind held payload written fits)

theorem decides_slots {fields : List SchemaField} {values : List Value} {bytes : List UInt8}
    (kinded : List.Forall₂ SchemaField.Holds fields values)
    (payloads : ∀ value ∈ values, DecidesPayloads nested limit value)
    (encoded : Value.encodeSlots fields values = .ok bytes) (short : bytes.length ≤ limit) :
    (readSlots nested fields).Decides bytes values
      (∀ value ∈ values, value.Throughout Value.IsRegular) := by
  induction kinded generalizing bytes with
  | nil =>
    cases encoded
    exact (ByteReader.Reads.pure []).decides (by simp)
  | @cons field value fields values held _ ih =>
    obtain ⟨front, back, first, second, rfl⟩ := Except.both_eq_ok_iff.mp encoded
    rw [List.length_append] at short
    have head := decides_slot held (payloads value (List.mem_cons_self ..)) first (by omega)
    have tail := (ih (fun other member => payloads other (List.mem_cons_of_mem _ member)) second
      (by omega)).map (value :: ·)
    exact (head.bind tail).congr (by simp)

end Slots

variable {catalog : Catalog}

theorem decides_nested {record : Record} {bytes : List UInt8} {depth : Nat}
    (kinded : record.IsKinded)
    (found : catalog.findByFingerprint? record.schema.fingerprint = some record.schema)
    (payloads : ∀ less, ∀ value ∈ record.values,
      DecidesPayloads (readNested catalog less) less value)
    (encoded : record.encode = .ok bytes) (short : bytes.length ≤ depth) :
    (readNested catalog depth).Decides bytes record record.HasRegularTimestamps := by
  obtain ⟨_, slots, fingerprint, written, rfl⟩ := Except.both_eq_ok_iff.mp encoded
  cases fingerprint
  rw [List.length_append, length_littleEndian] at short
  -- The fingerprint takes four bytes, so one level of the depth can go to this record.
  obtain ⟨less, rfl⟩ : ∃ less, depth = less + 1 := ⟨depth - 1, by omega⟩
  have parts := decides_slots kinded (payloads less) written (by omega)
  rw [readNested]
  apply (Codec.readsBack_uint32 record.schema.fingerprint _ rfl).decides_bind
  rw [found]
  refine (parts.map (Record.mk record.schema)).congr ?_
  rw [HasRegularTimestamps, Value.throughout_iff]
  exact (and_iff_right trivial).symm

/-- A record takes more bytes than each record within it, so that a depth of so many bytes is
never exceeded. -/
theorem decidesPayloads {value : Value} (kinded : value.Throughout (Value.OnRecord IsKinded))
    (noLeap : value.Throughout fun inner => ¬ inner.IsLeapTime)
    (known : value.Throughout <| Value.OnRecord fun inner =>
      catalog.findByFingerprint? inner.schema.fingerprint = some inner.schema) (depth : Nat) :
    DecidesPayloads (readNested catalog depth) depth value := by
  induction value using Value.componentInduction generalizing depth with
  | step value ih =>
    intro kind held payload encoded short
    by_cases composite : kind = .compact
    · subst composite
      obtain ⟨schema, values, rfl⟩ := Value.exists_record held
      refine (decides_nested kinded.self known.self (fun less part member => ?_) encoded short).map
        toValue
      exact ih part member (kinded.part member) (noLeap.part member) (known.part member) less
    · have single := Value.components_of_mem_fieldKinds held composite
      exact (decides_payload _ held composite noLeap.self encoded).congr
        (Value.throughout_iff_self single).symm

theorem decides_read {record : Record} {bytes : List UInt8} (storable : record.Storable catalog)
    (encoded : record.encode = .ok bytes) :
    (read catalog).Decides bytes record record.HasRegularTimestamps := by
  have decides (rest : List UInt8) : (readNested catalog (bytes ++ rest).length).Decides bytes
      record record.HasRegularTimestamps := by
    refine decides_nested storable.kinded.self storable.known.self (fun less part member => ?_)
      encoded (by simp)
    exact decidesPayloads (storable.kinded.part member) (storable.noLeapTime.part member)
      (storable.known.part member) less
  exact ⟨fun regular rest => (decides rest).reads regular rest,
    fun irregular rest => (decides rest).refuses irregular rest⟩

theorem decides_readAll {records : List Record} {bytes : List UInt8}
    (storable : ∀ record ∈ records, record.Storable catalog)
    (encoded : encodeAll records = .ok bytes) :
    (readAll catalog records.length).Decides bytes records
      (∀ record ∈ records, record.HasRegularTimestamps) := by
  induction records generalizing bytes with
  | nil =>
    cases encoded
    exact (ByteReader.Reads.pure []).decides (by simp)
  | cons record records ih =>
    obtain ⟨front, back, first, second, rfl⟩ := Except.both_eq_ok_iff.mp encoded
    have head := decides_read (storable record (List.mem_cons_self ..)) first
    have tail := (ih (fun other member => storable other (List.mem_cons_of_mem _ member))
      second).map (record :: ·)
    exact (head.bind tail).congr (by simp)

theorem exists_encodeAll {records : List Record}
    (storable : ∀ record ∈ records, record.Storable catalog) :
    ∃ bytes, encodeAll records = .ok bytes := by
  induction records with
  | nil => exact ⟨[], rfl⟩
  | cons record records ih =>
    have head := storable record (List.mem_cons_self ..)
    obtain ⟨front, first⟩ := exists_encode head.kinded head.textsFit
    obtain ⟨back, second⟩ := ih fun other member => storable other (List.mem_cons_of_mem _ member)
    exact ⟨front ++ back, by rw [encodeAll, first, second]; rfl⟩

/-- Storable records are written, and read back in order in front of any bytes, exactly when all
their timestamps are regular. Otherwise the reader fails on the stream. -/
theorem readAll_encodeAll_iff (catalog : Catalog) (records : List Record)
    (storable : ∀ record ∈ records, record.Storable catalog) :
    ∃ bytes, encodeAll records = .ok bytes ∧ ∀ trailing,
      ((readAll catalog records.length).run (bytes ++ trailing) = .ok (records, trailing) ↔
        ∀ record ∈ records, record.HasRegularTimestamps) ∧
      ((∃ record ∈ records, ¬ record.HasRegularTimestamps) →
        ∃ fault, (readAll catalog records.length).run (bytes ++ trailing) = .error fault) := by
  obtain ⟨bytes, encoded⟩ := exists_encodeAll storable
  have decides := decides_readAll storable encoded
  refine ⟨bytes, encoded, fun trailing => ⟨decides.reads_iff trailing, ?_⟩⟩
  rintro ⟨record, member, irregular⟩
  exact decides.refuses (fun regular => irregular (regular record member)) trailing

section Notes

open Calendar

/-- A schema of records within each other. -/
def noteSchema : Schema :=
  .ofFields "Note" [.scalar "text" .string, .scalar "at" .timestamp, .composite "next" "Note"]

def noteCatalog : Catalog :=
  Catalog.empty.insert noteSchema

def note (text : String) (moment : Timestamp) (next : Value) : Record :=
  ⟨noteSchema, [.varchar text, .timestamp moment, next]⟩

/-- The leap second at the end of 2016. -/
def yearEnd : Timestamp :=
  ⟨⟨736329, by decide, by decide⟩, ⟨86399, 1500000000, by decide, by decide⟩⟩

/-- The same instant on a clock that is thirty seconds ahead. -/
def midMinute : Timestamp :=
  ⟨⟨736330, by decide, by decide⟩, ⟨29, 1500000000, by decide, by decide⟩⟩

private theorem throughout_note {holds : Value → Prop} {text : String} {moment : Timestamp}
    {next : Value} : (note text moment next).toValue.Throughout holds ↔
      holds (note text moment next).toValue ∧ holds (.varchar text) ∧ holds (.timestamp moment) ∧
        next.Throughout holds := by
  have scalars : (Value.varchar text).Throughout holds ∧ (Value.timestamp moment).Throughout holds ↔
      holds (.varchar text) ∧ holds (.timestamp moment) :=
    and_congr (Value.throughout_iff_self rfl) (Value.throughout_iff_self rfl)
  rw [Value.throughout_iff, ← and_assoc (c := next.Throughout holds), ← scalars, and_assoc]
  simp [note, toValue, Value.components]

private theorem storable_note {text : String} {next : Value}
    (short : (Text.Utf8.bytes text).length < 2 ^ 32) (moment : Timestamp)
    (followed : next = .null ∨
      ∃ record : Record, record.Storable noteCatalog ∧ next = record.toValue) :
    (note text moment next).Storable noteCatalog := by
  have found : noteCatalog.findByFingerprint? noteSchema.fingerprint = some noteSchema := by
    rw [noteCatalog, Catalog.findByFingerprint?_insert, if_pos rfl]
  have held : (SchemaField.composite "next" "Note").Holds next := by
    rcases followed with null | ⟨record, _, same⟩
    · exact .inl null
    · exact .inr (same ▸ List.mem_singleton.mpr rfl)
  have kinded : (note text moment next).IsKinded :=
    .cons (.inr (List.mem_singleton.mpr rfl)) <| .cons (.inr (List.mem_singleton.mpr rfl)) <|
      .cons held .nil
  have fits : ¬ (Value.varchar text).IsLongText := Nat.not_le.mpr short
  have rest {holds : Value → Prop} (null : holds .null)
      (within : ∀ record : Record, record.Storable noteCatalog → record.toValue.Throughout holds) :
      next.Throughout holds := by
    rcases followed with same | ⟨record, storable, same⟩
    · subst same
      exact (Value.throughout_iff_self rfl).mpr null
    · subst same
      exact within record storable
  constructor
  · exact throughout_note.mpr ⟨kinded, trivial, trivial, rest trivial fun _ => Storable.kinded⟩
  · exact throughout_note.mpr ⟨id, fits, id, rest id fun _ => Storable.textsFit⟩
  · exact throughout_note.mpr ⟨id, id, id, rest id fun _ => Storable.noLeapTime⟩
  · exact throughout_note.mpr ⟨found, trivial, trivial, rest trivial fun _ => Storable.known⟩

def firstNote : Record :=
  note "first" yearEnd .null

/-- A note with another one in it. -/
def secondNote : Record :=
  note "second" yearEnd firstNote.toValue

def lateNote : Record :=
  note "late" midMinute .null

private theorem storable_firstNote : firstNote.Storable noteCatalog :=
  storable_note (by decide) yearEnd (.inl rfl)

private theorem storable_secondNote : secondNote.Storable noteCatalog :=
  storable_note (by decide) yearEnd (.inr ⟨firstNote, storable_firstNote, rfl⟩)

private theorem storable_lateNote : lateNote.Storable noteCatalog :=
  storable_note (by decide) midMinute (.inl rfl)

theorem readAll_notes : (∀ record ∈ [firstNote, secondNote], record.Storable noteCatalog) ∧
    ∃ bytes, encodeAll [firstNote, secondNote] = .ok bytes ∧ ∀ trailing,
      (readAll noteCatalog 2).run (bytes ++ trailing) =
        .ok ([firstNote, secondNote], trailing) := by
  have storable : ∀ record ∈ [firstNote, secondNote], record.Storable noteCatalog := by
    simp [storable_firstNote, storable_secondNote]
  have yearEnds : (Value.timestamp yearEnd).IsRegular := fun _ => by decide
  have first : firstNote.HasRegularTimestamps :=
    throughout_note.mpr ⟨trivial, trivial, yearEnds, (Value.throughout_iff_self rfl).mpr trivial⟩
  have second : secondNote.HasRegularTimestamps :=
    throughout_note.mpr ⟨trivial, trivial, yearEnds, first⟩
  obtain ⟨bytes, encoded, reads⟩ :=
    readAll_encodeAll_iff noteCatalog [firstNote, secondNote] storable
  refine ⟨storable, bytes, encoded, fun trailing => (reads trailing).1.mpr ?_⟩
  simp [first, second]

/-- A leap second in the middle of a minute is written but never read. -/
theorem lateNote_lost : lateNote.Storable noteCatalog ∧
    ∃ bytes, encodeAll [lateNote] = .ok bytes ∧ ∀ trailing,
      ∃ fault, (readAll noteCatalog 1).run (bytes ++ trailing) = .error fault := by
  have storable : ∀ record ∈ [lateNote], record.Storable noteCatalog := by
    simp [storable_lateNote]
  have irregular : ¬ lateNote.HasRegularTimestamps := by
    intro regular
    have moment : midMinute.time.IsRegular := (throughout_note.mp regular).2.2.1
    exact absurd (moment rfl) (by decide)
  obtain ⟨bytes, encoded⟩ := exists_encodeAll storable
  refine ⟨storable_lateNote, bytes, encoded, (decides_readAll storable encoded).refuses ?_⟩
  simp [irregular]

end Notes

end Record

end RowProjection
