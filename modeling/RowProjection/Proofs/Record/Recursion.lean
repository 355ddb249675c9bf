import Mathlib.Logic.Function.Iterate
import RowProjection.Proofs.Record.Spelling

/-! Reading terminates. Records within each other are read by a recursion that no schema bounds,
and each level takes the bytes of a fingerprint. So more levels than there are bytes are never
entered, and the bound on the depth has no part in the answer. -/

namespace RowProjection

open Wire

namespace Wire.Reader

variable {α β : Type} {first second : Reader α} {limit : Nat}

/-- The readers answer the same on all bytes that are fewer than the limit. -/
def AgreesBelow (limit : Nat) (first second : Reader α) : Prop :=
  ∀ bytes : List UInt8, bytes.length < limit → first.run bytes = second.run bytes

theorem AgreesBelow.refl (limit : Nat) (reader : Reader α) : reader.AgreesBelow limit reader :=
  fun _ _ => rfl

/-- What is read behind bytes that were taken is read behind fewer bytes. -/
theorem AgreesBelow.bind {next other : α → Reader β} (agrees : first.AgreesBelow limit second)
    (takes : second.Takes) (follows : ∀ value, (next value).AgreesBelow limit (other value)) :
    (first >>= next).AgreesBelow limit (second >>= other) := by
  intro bytes short
  rw [StateT.run_bind, StateT.run_bind, agrees bytes short]
  cases read : second.run bytes with
  | error fault => rfl
  | ok result =>
    obtain ⟨taken, rfl⟩ := takes bytes result.1 result.2 read
    rw [List.length_append] at short
    exact follows result.1 result.2 (by omega)

/-- What is read behind bytes of which one was taken for certain is read behind one byte less. -/
theorem AgreesBelow.behind {reader : Reader α} {next other : α → Reader β}
    (shrinks : ∀ bytes value rest, reader.run bytes = .ok (value, rest) →
      rest.length < bytes.length)
    (follows : ∀ value, (next value).AgreesBelow limit (other value)) :
    (reader >>= next).AgreesBelow (limit + 1) (reader >>= other) := by
  intro bytes short
  rw [StateT.run_bind, StateT.run_bind]
  cases read : reader.run bytes with
  | error fault => rfl
  | ok result =>
    have shorter := shrinks bytes result.1 result.2 read
    exact follows result.1 result.2 (by omega)

theorem AgreesBelow.map (function : α → β) (agrees : first.AgreesBelow limit second) :
    (function <$> first).AgreesBelow limit (function <$> second) := by
  intro bytes short
  rw [StateT.run_map, StateT.run_map, agrees bytes short]

end Wire.Reader

namespace Record

open Reader

/-- One level of the recursion: a fingerprint, and the slots of the schema that it leads to. -/
def readRecord (catalog : Catalog) (nested : Reader Record) : Reader Record := do
  let fingerprint ← Codec.uint32.read
  match catalog.findByFingerprint? fingerprint with
  | none => throw (.unknownFingerprint fingerprint)
  | some schema =>
    let values ← readSlots nested schema.fields
    return ⟨schema, values⟩

variable {catalog : Catalog} {first second : Reader Record} {limit : Nat}

theorem readNested_succ (catalog : Catalog) (depth : Nat) :
    readNested catalog (depth + 1) = readRecord catalog (readNested catalog depth) :=
  rfl

/-- Only the payloads of composite fields are read by the reader of nested records. -/
theorem agreesBelow_readPayload (agrees : first.AgreesBelow limit second) (kind : FieldKind) :
    (readPayload first kind).AgreesBelow limit (readPayload second kind) := by
  cases kind with
  | compact => exact agrees.map toValue
  | _ => exact .refl limit _

theorem agreesBelow_readSlot (agrees : first.AgreesBelow limit second) (field : SchemaField) :
    (readSlot first field).AgreesBelow limit (readSlot second field) := by
  apply (AgreesBelow.refl limit _).bind (takes_word 1)
  intro tag
  split
  · exact .refl limit _
  · exact agreesBelow_readPayload agrees field.kind
  · exact .refl limit _

theorem takes_readSlot (spelled : ReadsSpelled catalog second) (field : SchemaField) :
    (readSlot second field).Takes := by
  intro bytes value rest read
  obtain ⟨taken, _, front, _⟩ := spelled_of_readSlot spelled read
  exact ⟨taken, front⟩

theorem agreesBelow_readSlots (agrees : first.AgreesBelow limit second)
    (spelled : ReadsSpelled catalog second) (fields : List SchemaField) :
    (readSlots first fields).AgreesBelow limit (readSlots second fields) := by
  induction fields with
  | nil => exact .refl limit _
  | cons field fields ih =>
    apply (agreesBelow_readSlot agrees field).bind (takes_readSlot spelled field)
    intro value
    exact ih.map (value :: ·)

/-- A level takes a fingerprint, so longer bytes are read alike by one level more. -/
theorem agreesBelow_readRecord (agrees : first.AgreesBelow limit second)
    (spelled : ReadsSpelled catalog second) :
    (readRecord catalog first).AgreesBelow (limit + 1) (readRecord catalog second) := by
  apply AgreesBelow.behind
  · intro bytes fingerprint rest read
    rw [Codec.uint32_eq_ok read, List.length_append, length_littleEndian]
    omega
  · intro fingerprint
    cases catalog.findByFingerprint? fingerprint with
    | none => exact .refl limit _
    | some schema =>
      exact (agreesBelow_readSlots agrees spelled schema.fields).map (Record.mk schema)

/-- However the recursion is cut off below a depth, shorter bytes are read the same. -/
theorem agreesBelow_iterate (catalog : Catalog) (beyond : Reader Record) (depth : Nat) :
    ((readRecord catalog)^[depth + 1] beyond).AgreesBelow (depth + 1)
      (readNested catalog depth) := by
  induction depth with
  | zero =>
    intro bytes short
    have none : bytes = [] := List.eq_nil_of_length_eq_zero (by omega)
    subst none
    rfl
  | succ depth ih =>
    rw [Function.iterate_succ_apply', readNested_succ]
    exact agreesBelow_readRecord ih (readsSpelled_readNested catalog depth)

theorem agreesBelow_read (catalog : Catalog) (beyond : Reader Record) (depth : Nat) :
    ((readRecord catalog)^[depth] beyond).AgreesBelow depth (read catalog) := by
  intro bytes short
  obtain ⟨more, rfl⟩ : ∃ more, depth = bytes.length + 1 + more :=
    ⟨depth - (bytes.length + 1), by omega⟩
  rw [Function.iterate_add_apply]
  exact agreesBelow_iterate catalog _ bytes.length bytes (by omega)

/-- The bounded reader is a solution of the recursion. -/
theorem read_eq_readRecord (catalog : Catalog) (bytes : List UInt8) :
    (read catalog).run bytes = (readRecord catalog (read catalog)).run bytes := by
  have spelled : ReadsSpelled catalog (read catalog) := fun _ _ _ => spelled_of_read
  have below := agreesBelow_readRecord
    (agreesBelow_read catalog (read catalog) bytes.length) spelled bytes (by omega)
  rw [← below, ← Function.iterate_succ_apply' (readRecord catalog)]
  exact (agreesBelow_read catalog (read catalog) (bytes.length + 1) bytes (by omega)).symm

/-- What is known of a record that was read, and of the bytes it was read from. -/
structure ReadOff (catalog : Catalog) (bytes rest : List UInt8) (record : Record) : Prop where
  kinded : record.WellKinded
  noLeapTime : record.toValue.Throughout fun value => ¬ value.IsLeapTime
  consumed : ∃ taken, bytes = taken ++ rest ∧ taken.length = record.size
  rewritten : ∃ written, record.toBytes = .ok written ∧ written.length = record.size ∧
    ∀ trailing, (read catalog).run (written ++ trailing) = .ok (record, trailing)

theorem readOff_of_read {bytes rest : List UInt8} {record : Record} (indexed : catalog.Indexed)
    (decoded : (read catalog).run bytes = .ok (record, rest)) :
    record.ReadOff catalog bytes rest := by
  obtain ⟨taken, payloads, front, spelled⟩ := spelled_of_read decoded
  obtain ⟨written, _, encoded, again, _⟩ := spelled.exists_written indexed
  exact ⟨spelled.onRecords fun _ _ _ _ => id, spelled.noLeapTime,
    ⟨taken, front, spelled.length_eq⟩, written, toBytes_eq_ok_iff.mpr encoded, again.length_eq,
    again.read⟩

/-- Under the catalog of any run of declarations, whatever its schemas refer to, reading answers
on all bytes: the recursion is solved, and no more levels are entered than there are bytes. The
answer is a fault, or a record that is as long as the bytes it was read from, and that is written
and read again. -/
theorem read_terminates (run : List Declaration) (bytes : List UInt8) :
    (∀ beyond depth, bytes.length < depth →
      ((readRecord (Catalog.empty.declared run))^[depth] beyond).run bytes =
        (read (Catalog.empty.declared run)).run bytes) ∧
    (read (Catalog.empty.declared run)).run bytes =
      (readRecord (Catalog.empty.declared run) (read (Catalog.empty.declared run))).run bytes ∧
    ((∃ fault, (read (Catalog.empty.declared run)).run bytes = .error fault) ∨
      ∃ record rest, (read (Catalog.empty.declared run)).run bytes = .ok (record, rest) ∧
        record.ReadOff (Catalog.empty.declared run) bytes rest) := by
  refine ⟨fun beyond depth short => agreesBelow_read _ beyond depth bytes short,
    read_eq_readRecord _ bytes, ?_⟩
  cases decoded : (read (Catalog.empty.declared run)).run bytes with
  | error fault => exact .inl ⟨fault, rfl⟩
  | ok result =>
    exact .inr ⟨result.1, result.2, rfl, readOff_of_read (Catalog.indexed_declared run) decoded⟩

section Chains

/-- A schema that refers to itself. -/
def chainSchema : Schema :=
  .ofFields "Chain" [.composite "next" "Chain"]

def chainRun : List Declaration :=
  [.create chainSchema]

/-- A record with another one in it. -/
def chain : Record :=
  ⟨chainSchema, [(empty chainSchema).toValue]⟩

def chainBytes : List UInt8 :=
  littleEndian 4 chainSchema.fingerprint.toNat ++
    1 :: (littleEndian 4 chainSchema.fingerprint.toNat ++ [0])

private theorem spelled_chain :
    Spelled (Catalog.empty.declared chainRun) chainBytes chain [] := by
  have found := Catalog.findByFingerprint?_created chainSchema
  exact .record found (.nested rfl found (.absent .done) .done)

theorem read_chain :
    (read (Catalog.empty.declared chainRun)).run chainBytes = .ok (chain, []) ∧
      chain.ReadOff (Catalog.empty.declared chainRun) chainBytes [] := by
  have decoded := spelled_chain.read []
  rw [List.append_nil] at decoded
  rcases (read_terminates chainRun chainBytes).2.2 with
    ⟨fault, failed⟩ | ⟨record, rest, answer, off⟩
  · rw [decoded] at failed
    cases failed
  · rw [decoded] at answer
    cases answer
    exact ⟨decoded, off⟩

end Chains

end Record

end RowProjection
