import RowProjection.Proofs.Record.Acceptance
import RowProjection.Proofs.Schema.Declarations

/-! The bytes that spell records. A reader succeeds on bytes exactly if they begin with a spelling
of the record that it answers. A spelling is as long as the record is measured, and it is the
encoding of the record exactly if nothing was passed over in its payloads. -/

namespace RowProjection

open Wire

/-- What the earlier catalog finds by a fingerprint the later one finds as well, or it finds
nothing by it. -/
def Catalog.OnlyForgets (earlier later : Catalog) : Prop :=
  ∀ fingerprint schema, earlier.findByFingerprint? fingerprint = some schema →
    later.findByFingerprint? fingerprint = some schema ∨
      later.findByFingerprint? fingerprint = none

namespace Record

/-- The slots of fields in a spelling: a zero for null, or a one in front of a payload or of a
nested record. The payloads of the scalar fields are listed with their kinds. -/
inductive SlotsSpelled (catalog : Catalog) :
    List SchemaField → List UInt8 → List Value → List (FieldKind × List UInt8) → Prop where
  | done : SlotsSpelled catalog [] [] [] []
  | absent {field : SchemaField} {fields : List SchemaField} {bytes : List UInt8}
      {values : List Value} {payloads : List (FieldKind × List UInt8)}
      (others : SlotsSpelled catalog fields bytes values payloads) :
      SlotsSpelled catalog (field :: fields) (0 :: bytes) (.null :: values) payloads
  | scalar {field : SchemaField} {fields : List SchemaField} {payload bytes : List UInt8}
      {value : Value} {values : List Value} {payloads : List (FieldKind × List UInt8)}
      (accepted : field.kind.Accepts payload value)
      (others : SlotsSpelled catalog fields bytes values payloads) :
      SlotsSpelled catalog (field :: fields) (1 :: (payload ++ bytes)) (value :: values)
        ((field.kind, payload) :: payloads)
  | nested {field : SchemaField} {fields : List SchemaField} {fingerprint : UInt32}
      {schema : Schema} {slots bytes : List UInt8} {inner values : List Value}
      {within payloads : List (FieldKind × List UInt8)} (composite : field.kind = .compact)
      (found : catalog.findByFingerprint? fingerprint = some schema)
      (deeper : SlotsSpelled catalog schema.fields slots inner within)
      (others : SlotsSpelled catalog fields bytes values payloads) :
      SlotsSpelled catalog (field :: fields)
        (1 :: (littleEndian 4 fingerprint.toNat ++ slots ++ bytes))
        (.record schema inner :: values) (within ++ payloads)

/-- A record in a spelling: a fingerprint by which its schema is found, and its slots. -/
inductive Spelled (catalog : Catalog) :
    List UInt8 → Record → List (FieldKind × List UInt8) → Prop where
  | record {fingerprint : UInt32} {schema : Schema} {slots : List UInt8} {values : List Value}
      {payloads : List (FieldKind × List UInt8)}
      (found : catalog.findByFingerprint? fingerprint = some schema)
      (spelled : SlotsSpelled catalog schema.fields slots values payloads) :
      Spelled catalog (littleEndian 4 fingerprint.toNat ++ slots) ⟨schema, values⟩ payloads

section Reading

variable {catalog : Catalog} {nested : Reader Record} {bytes rest : List UInt8}

/-- A reader that only succeeds in front of spellings. -/
def ReadsSpelled (catalog : Catalog) (nested : Reader Record) : Prop :=
  ∀ bytes record rest, nested.run bytes = .ok (record, rest) →
    ∃ taken payloads, bytes = taken ++ rest ∧ Spelled catalog taken record payloads

theorem spelled_of_readSlot {field : SchemaField} {value : Value}
    (inner : ReadsSpelled catalog nested)
    (read : (readSlot nested field).run bytes = .ok (value, rest)) :
    ∃ taken payloads, bytes = taken ++ rest ∧ ∀ fields behind values others,
      SlotsSpelled catalog fields behind values others →
        SlotsSpelled catalog (field :: fields) (taken ++ behind) (value :: values)
          (payloads ++ others) := by
  obtain ⟨tag, remaining, tagged, payload⟩ := Reader.bind_eq_ok_iff.mp read
  obtain ⟨_, rfl⟩ := Reader.word_eq_ok tagged
  split at payload
  · cases payload
    exact ⟨[0], [], rfl, fun _ _ _ _ others => .absent others⟩
  · by_cases composite : field.kind = .compact
    · rw [composite] at payload
      obtain ⟨record, stands, rfl⟩ := Reader.map_eq_ok_iff.mp payload
      obtain ⟨taken, within, rfl, spelled⟩ := inner _ _ _ stands
      refine ⟨1 :: taken, within, rfl, fun fields behind values payloads others => ?_⟩
      cases spelled with
      | record found deeper => exact .nested composite found deeper others
    · obtain ⟨taken, rfl, accepted⟩ := FieldKind.accepts_of_readPayload composite payload
      exact ⟨1 :: taken, [(field.kind, taken)], rfl, fun _ _ _ _ others => .scalar accepted others⟩
  · cases payload

theorem spelled_of_readSlots {fields : List SchemaField} {values : List Value}
    (inner : ReadsSpelled catalog nested)
    (read : (readSlots nested fields).run bytes = .ok (values, rest)) :
    ∃ taken payloads, bytes = taken ++ rest ∧
      SlotsSpelled catalog fields taken values payloads := by
  induction fields generalizing bytes values with
  | nil =>
    cases read
    exact ⟨[], [], rfl, .done⟩
  | cons field fields ih =>
    obtain ⟨value, remaining, first, read⟩ := Reader.bind_eq_ok_iff.mp read
    obtain ⟨others, behind, second, read⟩ := Reader.bind_eq_ok_iff.mp read
    cases read
    obtain ⟨front, payloads, rfl, place⟩ := spelled_of_readSlot inner first
    obtain ⟨back, more, rfl, spelled⟩ := ih second
    exact ⟨front ++ back, payloads ++ more, (List.append_assoc ..).symm, place _ _ _ _ spelled⟩

/-- The depth bounds the records within each other, and has no part in how they are spelled. -/
theorem readsSpelled_readNested (catalog : Catalog) (depth : Nat) :
    ReadsSpelled catalog (readNested catalog depth) := by
  induction depth with
  | zero =>
    intro bytes record rest read
    cases read
  | succ depth ih =>
    intro bytes record rest read
    obtain ⟨fingerprint, remaining, first, behind⟩ := Reader.bind_eq_ok_iff.mp read
    cases Codec.uint32_eq_ok first
    split at behind
    · cases behind
    · next schema found =>
      obtain ⟨values, slots, rfl⟩ := Reader.map_eq_ok_iff.mp behind
      obtain ⟨taken, payloads, rfl, spelled⟩ := spelled_of_readSlots ih slots
      exact ⟨_, payloads, (List.append_assoc ..).symm, .record found spelled⟩

theorem spelled_of_read {record : Record}
    (read : (read catalog).run bytes = .ok (record, rest)) :
    ∃ taken payloads, bytes = taken ++ rest ∧ Spelled catalog taken record payloads :=
  readsSpelled_readNested catalog bytes.length bytes record rest read

end Reading

section Slots

variable {catalog : Catalog} {fields : List SchemaField} {bytes : List UInt8}
  {values : List Value} {payloads : List (FieldKind × List UInt8)}

theorem SlotsSpelled.kinded (spelled : SlotsSpelled catalog fields bytes values payloads) :
    List.Forall₂ SchemaField.Holds fields values := by
  induction spelled with
  | done => exact .nil
  | absent _ ih => exact .cons (.inl rfl) ih
  | scalar accepted _ ih => exact .cons (.inr accepted.held) ih
  | nested composite _ _ _ _ ih => exact .cons (.inr (List.mem_singleton.mpr composite)) ih

/-- What holds of null, of all that is accepted in a scalar field, and of records that are found by
their fingerprints, holds of everything that is spelled. -/
theorem SlotsSpelled.throughout {holds : Value → Prop}
    (spelled : SlotsSpelled catalog fields bytes values payloads) (null : holds .null)
    (scalar : ∀ kind payload value, FieldKind.Accepts kind payload value → holds value)
    (record : ∀ fingerprint schema slots, catalog.findByFingerprint? fingerprint = some schema →
      List.Forall₂ SchemaField.Holds schema.fields slots → holds (.record schema slots)) :
    ∀ value ∈ values, value.Throughout holds := by
  induction spelled with
  | done => exact List.forall_mem_nil _
  | absent _ ih =>
    exact List.forall_mem_cons.mpr ⟨(Value.throughout_iff_self rfl).mpr null, ih⟩
  | scalar accepted _ ih =>
    have single := Value.components_of_mem_fieldKinds accepted.held accepted.scalar
    have own := scalar _ _ _ accepted
    exact List.forall_mem_cons.mpr ⟨(Value.throughout_iff_self single).mpr own, ih⟩
  | nested composite found deeper _ within ih =>
    have own := record _ _ _ found deeper.kinded
    exact List.forall_mem_cons.mpr ⟨Value.throughout_iff.mpr ⟨own, within⟩, ih⟩

theorem SlotsSpelled.length_eq (spelled : SlotsSpelled catalog fields bytes values payloads) :
    bytes.length = Value.slotsSize values := by
  induction spelled with
  | done => rfl
  | absent _ ih =>
    rw [List.length_cons, ih, Value.slotsSize, Value.payloadSize]
    omega
  | scalar accepted _ ih =>
    rw [List.length_cons, List.length_append, accepted.length_eq, ih, Value.slotsSize]
    omega
  | nested _ _ _ _ within ih =>
    rw [List.length_cons, List.length_append, List.length_append, length_littleEndian, within, ih,
      Value.slotsSize, Value.payloadSize]
    omega

/-- The slots are written in a spelling of their own. It is the given one exactly if nothing is
passed over in the payloads of that. -/
theorem SlotsSpelled.exists_written
    (own : ∀ fingerprint schema, catalog.findByFingerprint? fingerprint = some schema →
      schema.fingerprint = fingerprint)
    (spelled : SlotsSpelled catalog fields bytes values payloads) :
    ∃ written others, Value.encodeSlots fields values = .ok written ∧
      SlotsSpelled catalog fields written values others ∧
      (written = bytes ↔ ∀ payload ∈ payloads, payload.1.IsExact payload.2) := by
  induction spelled with
  | done => exact ⟨[], [], rfl, .done, by simp⟩
  | absent _ ih =>
    obtain ⟨written, others, encoded, slots, same⟩ := ih
    refine ⟨0 :: written, others, ?_, .absent slots, ?_⟩
    · rw [Value.encodeSlots, encoded]
      rfl
    · rw [List.cons_inj_right, same]
  | @scalar field fields payload bytes value values payloads accepted _ ih =>
    obtain ⟨written, others, encoded, slots, same⟩ := ih
    obtain ⟨exact, wrote, again, exactly⟩ := accepted.exists_written
    have present := Value.isNull_of_mem_fieldKinds accepted.held
    have lengths : exact.length = payload.length := by
      rw [accepted.length_eq, again.length_eq]
    refine ⟨1 :: (exact ++ written), (field.kind, exact) :: others, ?_, .scalar again slots, ?_⟩
    · rw [Value.encodeSlots, Value.tagged, present, wrote, encoded]
      rfl
    · rw [List.cons_inj_right, List.append_eq_append_iff_of_size_eq_left lengths, exactly, same,
        List.forall_mem_cons]
  | @nested field fields fingerprint schema slots bytes inner values within payloads composite found
      deeper _ ihInner ih =>
    obtain ⟨written, others, encoded, spelled, same⟩ := ih
    obtain ⟨writtenInner, othersInner, encodedInner, spelledInner, sameInner⟩ := ihInner
    have lengths : writtenInner.length = slots.length := by
      rw [spelledInner.length_eq, deeper.length_eq]
    refine ⟨1 :: (littleEndian 4 fingerprint.toNat ++ writtenInner ++ written),
      othersInner ++ others, ?_, .nested composite found spelledInner spelled, ?_⟩
    · rw [Value.encodeSlots, Value.tagged, composite, Value.encodeAs, encodedInner, encoded,
        own _ _ found]
      rfl
    · rw [List.cons_inj_right, List.append_assoc, List.append_assoc, List.append_cancel_left_eq,
        List.append_eq_append_iff_of_size_eq_left lengths, sameInner, same,
        List.forall_mem_append]

end Slots

section Recalling

variable {earlier later : Catalog} {fields : List SchemaField} {bytes : List UInt8}
  {values : List Value} {payloads : List (FieldKind × List UInt8)} {nested : Reader Record}
  {depth : Nat}

/-- The faults of records within a value whose schemas only the earlier catalog finds. -/
def Forgotten (earlier later : Catalog) (value : Value) (fault : Fault) : Prop :=
  ∃ fingerprint schema slots, (Value.record schema slots).OccursIn value ∧
    earlier.findByFingerprint? fingerprint = some schema ∧
    later.findByFingerprint? fingerprint = none ∧ fault = .unknownFingerprint fingerprint

theorem Forgotten.of_part {value part : Value} {fault : Fault} (member : part ∈ value.components)
    (forgotten : Forgotten earlier later part fault) : Forgotten earlier later value fault := by
  obtain ⟨fingerprint, schema, slots, occurs, lost⟩ := forgotten
  exact ⟨fingerprint, schema, slots, .part member occurs, lost⟩

theorem present_slot {field : SchemaField} {payload : List UInt8} {value : Value}
    {causes : Fault → Prop}
    (present : (readPayload nested field.kind).ReadsOrFails payload value causes) :
    (readSlot nested field).ReadsOrFails (1 :: payload) value causes := by
  have slot : (readSlot nested field).ReadsOrFails ([1] ++ payload) value causes :=
    Reader.ReadsOrFails.bind (.inl reads_present_tag) present
  exact slot

/-- The faults that are forgotten within some of the values. -/
def ForgottenAmong (earlier later : Catalog) (values : List Value) (fault : Fault) : Prop :=
  ∃ value ∈ values, Forgotten earlier later value fault

theorem slots_cons {field : SchemaField} {front back : List UInt8} {value : Value}
    (first : (readSlot nested field).ReadsOrFails front value (Forgotten earlier later value))
    (others : (readSlots nested fields).ReadsOrFails back values
      (ForgottenAmong earlier later values)) :
    (readSlots nested (field :: fields)).ReadsOrFails (front ++ back) (value :: values)
      (ForgottenAmong earlier later (value :: values)) := by
  refine (first.imp ?_).bind ((others.imp ?_).map (value :: ·))
  · exact fun fault forgotten => ⟨value, List.mem_cons_self .., forgotten⟩
  · rintro fault ⟨part, member, forgotten⟩
    exact ⟨part, List.mem_cons_of_mem _ member, forgotten⟩

/-- A record is read as far as its slots are, unless the later catalog has forgotten its schema. -/
theorem record_of_slots {fingerprint : UInt32} {schema : Schema} {slots : List UInt8}
    (forgets : earlier.OnlyForgets later)
    (found : earlier.findByFingerprint? fingerprint = some schema)
    (read : (readSlots (readNested later depth) schema.fields).ReadsOrFails slots values
      (ForgottenAmong earlier later values)) :
    (readNested later (depth + 1)).ReadsOrFails (littleEndian 4 fingerprint.toNat ++ slots)
      ⟨schema, values⟩ (Forgotten earlier later (.record schema values)) := by
  rw [readNested]
  apply Reader.ReadsOrFails.bind (.inl (Codec.readsBack_uint32 fingerprint _ rfl))
  rcases forgets fingerprint schema found with kept | missing
  · rw [kept]
    refine (read.map (Record.mk schema)).imp ?_
    rintro fault ⟨value, member, forgotten⟩
    exact forgotten.of_part member
  · rw [missing]
    exact .inr ⟨_, ⟨fingerprint, schema, values, .self, found, missing, rfl⟩, fun _ => rfl⟩

/-- A spelling under the earlier catalog is read under the later one, as far as that still finds
the schemas of its records. -/
theorem SlotsSpelled.readsOrFails (forgets : earlier.OnlyForgets later)
    (spelled : SlotsSpelled earlier fields bytes values payloads) (short : bytes.length ≤ depth) :
    (readSlots (readNested later depth) fields).ReadsOrFails bytes values
      (ForgottenAmong earlier later values) := by
  induction spelled generalizing depth with
  | done => exact .inl (.pure [])
  | absent _ ih =>
    rw [List.length_cons] at short
    exact slots_cons (.inl (reads_absent_slot _ _)) (ih (by omega))
  | scalar accepted _ ih =>
    rw [List.length_cons, List.length_append] at short
    exact slots_cons (present_slot (.inl (accepted.reads _))) (ih (by omega))
  | @nested field fields fingerprint schema slots bytes inner values within payloads composite found
      deeper _ ihInner ih =>
    simp only [List.length_cons, List.length_append, length_littleEndian] at short
    -- The fingerprint takes four bytes, so one level of the depth can go to this record.
    obtain ⟨less, rfl⟩ : ∃ less, depth = less + 1 := ⟨depth - 1, by omega⟩
    have record := record_of_slots forgets found (@ihInner less (by omega))
    refine slots_cons (present_slot ?_) (ih (by omega))
    rw [composite]
    exact record.map toValue

theorem run_read (catalog : Catalog) (length : bytes.length = depth) :
    (read catalog).run bytes = (readNested catalog depth).run bytes := by
  subst length
  rfl

/-- A spelling under the earlier catalog is read under the later one, in front of any bytes, or it
is refused for a record in it whose schema is forgotten. -/
theorem Spelled.read_or_forgotten {record : Record} (forgets : earlier.OnlyForgets later)
    (spelled : Spelled earlier bytes record payloads) (rest : List UInt8) :
    (read later).run (bytes ++ rest) = .ok (record, rest) ∨
      ∃ fault, Forgotten earlier later record.toValue fault ∧
        (read later).run (bytes ++ rest) = .error fault := by
  cases spelled with
  | @record fingerprint schema slots values payloads found spelled =>
    have length : (littleEndian 4 fingerprint.toNat ++ slots ++ rest).length =
        slots.length + rest.length + 3 + 1 := by
      simp only [List.length_append, length_littleEndian]
      omega
    have short : slots.length ≤ slots.length + rest.length + 3 := by omega
    rw [run_read later length]
    rcases record_of_slots forgets found (spelled.readsOrFails forgets short) with
      reads | ⟨fault, forgotten, failed⟩
    · exact .inl (reads rest)
    · exact .inr ⟨fault, forgotten, failed rest⟩

end Recalling

section Whole

variable {catalog : Catalog} {bytes rest : List UInt8} {record : Record}
  {payloads : List (FieldKind × List UInt8)}

/-- The schema of a record is the one that the fingerprint in front of it leads to. -/
theorem found_of_read {fingerprint : UInt32} {slots : List UInt8}
    (read : (read catalog).run (littleEndian 4 fingerprint.toNat ++ slots) =
      .ok (record, rest)) :
    catalog.findByFingerprint? fingerprint = some record.schema := by
  obtain ⟨_, _, same, spelled⟩ := spelled_of_read read
  cases spelled with
  | @record stated _ _ _ _ found _ =>
    rw [List.append_assoc] at same
    have numbers := littleEndian_injective fingerprint.toNat_lt stated.toNat_lt
      (List.append_inj_left same (by rw [length_littleEndian, length_littleEndian]))
    rwa [UInt32.toNat_inj.mp numbers]

/-- Without a schema nothing but the fingerprint is looked at. -/
theorem failsWith_unknown {fingerprint : UInt32}
    (missing : catalog.findByFingerprint? fingerprint = none) :
    (read catalog).FailsWith (littleEndian 4 fingerprint.toNat)
      (.unknownFingerprint fingerprint) := by
  have level (depth : Nat) : (readNested catalog (depth + 1)).FailsWith
      (littleEndian 4 fingerprint.toNat ++ []) (.unknownFingerprint fingerprint) := by
    rw [readNested]
    apply ByteReader.Reads.failsWith_bind (Codec.readsBack_uint32 fingerprint _ rfl)
    rw [missing]
    intro rest
    rfl
  intro rest
  have length : (littleEndian 4 fingerprint.toNat ++ rest).length = rest.length + 3 + 1 := by
    simp only [List.length_append, length_littleEndian]
    omega
  rw [run_read catalog length]
  simpa using level (rest.length + 3) rest

/-- What is spelled under a catalog is read under it. -/
theorem Spelled.read (spelled : Spelled catalog bytes record payloads) :
    (read catalog).Reads bytes record := by
  intro rest
  have keeps : catalog.OnlyForgets catalog := fun _ _ => .inl
  rcases spelled.read_or_forgotten keeps rest with read | ⟨_, forgotten, _⟩
  · exact read
  · obtain ⟨_, _, _, _, found, missing, _⟩ := forgotten
    rw [found] at missing
    cases missing

/-- What holds of the records that are found by their fingerprints, with values of the kinds of
their fields, holds of every record in a spelling. -/
theorem Spelled.onRecords {holds : Record → Prop}
    (spelled : Spelled catalog bytes record payloads)
    (found : ∀ fingerprint schema slots, catalog.findByFingerprint? fingerprint = some schema →
      List.Forall₂ SchemaField.Holds schema.fields slots → holds ⟨schema, slots⟩) :
    record.toValue.Throughout (Value.OnRecord holds) := by
  cases spelled with
  | record known spelled =>
    refine Value.throughout_iff.mpr ⟨found _ _ _ known spelled.kinded, ?_⟩
    refine spelled.throughout trivial (fun kind payload value accepted => ?_) found
    exact Value.onRecord_of_mem_fieldKinds accepted.held accepted.scalar

theorem Spelled.noLeapTime (spelled : Spelled catalog bytes record payloads) :
    record.toValue.Throughout fun value => ¬ value.IsLeapTime := by
  cases spelled with
  | record known spelled =>
    refine Value.throughout_iff.mpr ⟨id, ?_⟩
    exact spelled.throughout id (fun _ _ _ accepted => accepted.noLeap) fun _ _ _ _ _ => id

theorem Spelled.length_eq (spelled : Spelled catalog bytes record payloads) :
    bytes.length = record.size := by
  cases spelled with
  | record found slots =>
    rw [List.length_append, length_littleEndian, slots.length_eq]
    rfl

/-- The record is written in a spelling of its own. It is the given one exactly if nothing is
passed over in the payloads of that. -/
theorem Spelled.exists_written (indexed : catalog.Indexed)
    (spelled : Spelled catalog bytes record payloads) :
    ∃ written others, record.encode = .ok written ∧ Spelled catalog written record others ∧
      (written = bytes ↔ ∀ payload ∈ payloads, payload.1.IsExact payload.2) := by
  cases spelled with
  | @record fingerprint schema slots values payloads found spelled =>
    have own := fun fingerprint schema found => (indexed fingerprint schema found).1
    obtain ⟨written, others, encoded, again, same⟩ := spelled.exists_written own
    refine ⟨littleEndian 4 fingerprint.toNat ++ written, others, ?_, .record found again, ?_⟩
    · rw [encode, toValue, Value.encodeAs, encoded, own _ _ found]
      rfl
    · rw [List.append_cancel_left_eq, same]

/-- Under the catalog of any run of declarations, a record that was read is written in as many
bytes as it was read from. They are the same bytes exactly if nothing was passed over in those: no
truth value was other than zero or one, and no flags of a decimal held more than a sign and a scale
of at most 28. Only one such spelling is accepted for the record. -/
theorem encode_of_read (run : List Declaration)
    (decoded : (Record.read (Catalog.empty.declared run)).run bytes = .ok (record, rest)) :
    ∃ taken payloads written, bytes = taken ++ rest ∧
      Spelled (Catalog.empty.declared run) taken record payloads ∧
      record.encode = .ok written ∧ written.length = taken.length ∧
      (written = taken ↔ ∀ payload ∈ payloads, payload.1.IsExact payload.2) ∧
      ∀ other behind,
        (Record.read (Catalog.empty.declared run)).run (other ++ behind) = .ok (record, behind) →
          ∃ others, Spelled (Catalog.empty.declared run) other record others ∧
            (written = other ↔ ∀ payload ∈ others, payload.1.IsExact payload.2) := by
  have indexed := Catalog.indexed_declared run
  obtain ⟨taken, payloads, rfl, spelled⟩ := spelled_of_read decoded
  obtain ⟨written, _, encoded, again, same⟩ := spelled.exists_written indexed
  refine ⟨taken, payloads, written, rfl, spelled, encoded, ?_, same, ?_⟩
  · rw [again.length_eq, spelled.length_eq]
  · intro other behind accepted
    obtain ⟨front, others, halves, spelledOther⟩ := spelled_of_read accepted
    obtain rfl := List.append_cancel_right halves
    obtain ⟨rewritten, _, encodedAgain, _, sameOther⟩ := spelledOther.exists_written indexed
    cases encoded.symm.trans encodedAgain
    exact ⟨others, spelledOther, sameOther⟩

end Whole

section Prices

def priceSchema : Schema :=
  .ofFields "Price" [.scalar "amount" .decimal, .scalar "listed" .boolean]

def priceRun : List Declaration :=
  [.create priceSchema]

/-- A price of 1.25 that is not listed, with the flags of its decimal and the byte of its truth
value as they are given. -/
def priceBytes (flags : Nat) (listed : UInt8) : List UInt8 :=
  littleEndian 4 priceSchema.fingerprint.toNat ++
    1 :: (littleEndian 4 flags ++ littleEndian 12 125 ++ [1, listed])

def price : Record :=
  ⟨priceSchema, [.decimal (decimalOfWords 0x20000 125), .boolean false]⟩

private theorem spelled_price (flags : Nat) (listed : UInt8) (flags_lt : flags < 256 ^ 4)
    (same : decimalOfWords flags 125 = decimalOfWords 0x20000 125) (unlisted : listed ≠ 1) :
    Spelled (Catalog.empty.declared priceRun) (priceBytes flags listed) price
      [(.decimal, littleEndian 4 flags ++ littleEndian 12 125), (.boolean, [listed])] := by
  have amount : FieldKind.Accepts .decimal (littleEndian 4 flags ++ littleEndian 12 125)
      (.decimal (decimalOfWords flags 125)) := .anyDecimal flags_lt (by decide)
  rw [same] at amount
  exact .record (Catalog.findByFingerprint?_created priceSchema)
    (.scalar amount (.scalar (.anyFalse (.inr rfl) unlisted) .done))

private theorem encode_eq_priceBytes : price.encode = .ok (priceBytes 0x20000 0) := by
  rw [encode, toValue, Value.encodeAs, priceBytes]
  rfl

theorem encode_price : (Record.read (Catalog.empty.declared priceRun)).run
      (priceBytes 0x20000 0) = .ok (price, []) ∧
    ∃ payloads, Spelled (Catalog.empty.declared priceRun) (priceBytes 0x20000 0) price payloads ∧
      ∀ payload ∈ payloads, payload.1.IsExact payload.2 := by
  have decoded := (spelled_price 0x20000 0 (by decide) rfl (by decide)).read []
  rw [List.append_nil] at decoded
  obtain ⟨taken, payloads, written, front, spelled, encoded, _, same, _⟩ :=
    encode_of_read priceRun decoded
  rw [List.append_nil] at front
  subst front
  cases encoded.symm.trans encode_eq_priceBytes
  exact ⟨decoded, payloads, spelled, same.mp rfl⟩

/-- Flags that mean nothing, and a truth value of two, are read as the same price. It is written
without them. -/
theorem encode_loose_price : (Record.read (Catalog.empty.declared priceRun)).run
      (priceBytes 0x20001 2) = .ok (price, []) ∧
    price.encode = .ok (priceBytes 0x20000 0) ∧ priceBytes 0x20001 2 ≠ priceBytes 0x20000 0 := by
  have decoded := (spelled_price 0x20001 2 (by decide) rfl (by decide)).read []
  rw [List.append_nil] at decoded
  refine ⟨decoded, encode_eq_priceBytes, fun same => ?_⟩
  have payloads := List.append_cancel_left same
  exact absurd payloads (by decide)

end Prices

end Record

end RowProjection
