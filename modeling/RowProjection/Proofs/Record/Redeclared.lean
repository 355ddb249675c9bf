import RowProjection.Proofs.Record.Spelling

namespace RowProjection

open Wire

/-- A call of the run replaces the type of a schema by another schema. -/
def Declaration.Redefines (run : List Declaration) (schema : Schema) : Prop :=
  ∃ other, .replace other ∈ run ∧ other.name = schema.name ∧ other ≠ schema

/-- No two of the schemas have one fingerprint. -/
def Schema.ApartByFingerprint (schemas : List Schema) : Prop :=
  ∀ left ∈ schemas, ∀ right ∈ schemas, left.fingerprint = right.fingerprint → left = right

namespace Catalog

variable {catalog : Catalog} {schema other : Schema} {offered : List Schema}
  {before after : List Declaration}

theorem declared_append (catalog : Catalog) (before after : List Declaration) :
    (catalog.declared before).declared after = catalog.declared (before ++ after) :=
  (List.foldl_append ..).symm

theorem mem_offered_append :
    schema ∈ Declaration.offered (before ++ after) ↔
      schema ∈ Declaration.offered before ∨ schema ∈ Declaration.offered after := by
  rw [Declaration.offered, List.flatMap_append, List.mem_append]
  rfl

theorem declaresOnly_append (before after : List Declaration) :
    (empty.declared before).DeclaresOnly (Declaration.offered (before ++ after)) := by
  intro name schema found
  exact mem_offered_append.mpr (.inl (declaresOnly_declared before name schema found))

/-- Whatever is found by a fingerprint was offered with it, and only one schema was. -/
theorem onlyForgets_declared
    (apart : Schema.ApartByFingerprint (Declaration.offered (before ++ after))) :
    (empty.declared before).OnlyForgets ((empty.declared before).declared after) := by
  intro fingerprint schema found
  obtain ⟨own, current⟩ := indexed_declared before fingerprint schema found
  have known := declaresOnly_append before after schema.name schema current
  rw [declared_append]
  cases later : (empty.declared (before ++ after)).findByFingerprint? fingerprint with
  | none => exact .inr rfl
  | some other =>
    obtain ⟨same, declared⟩ := indexed_declared (before ++ after) fingerprint other later
    have present := declaresOnly_declared (before ++ after) other.name other declared
    exact .inl (congrArg some (apart other present schema known (same.trans own.symm)))

/-- The schema is declared and found by its fingerprint, in a catalog of offered schemas. -/
structure Keeps (offered : List Schema) (schema : Schema) (catalog : Catalog) : Prop where
  only : catalog.DeclaresOnly offered
  declared : catalog.find? schema.name = some schema
  found : catalog.findByFingerprint? schema.fingerprint = some schema

/-- Replacing types of other names, or a type by itself, does not take the schema away. -/
theorem Keeps.replace (keeps : catalog.Keeps offered schema)
    (apart : Schema.ApartByFingerprint offered) (member : other ∈ offered)
    (elsewhere : other.name = schema.name → other = schema) :
    (catalog.replace other).Keeps offered schema := by
  have known := keeps.only _ _ keeps.declared
  refine ⟨keeps.only.replace member, ?_, ?_⟩
  · rw [find?_replace]
    by_cases same : schema.name = other.name
    · rw [if_pos same, elsewhere same.symm]
    · rw [if_neg same]
      exact keeps.declared
  · rw [findByFingerprint?_replace]
    by_cases same : schema.fingerprint = other.fingerprint
    · rw [if_pos same, apart schema known other member same]
    · rw [if_neg same, if_neg]
      · exact keeps.found
      · rintro ⟨previous, replaced, shared⟩
        have present := keeps.only _ _ replaced
        cases apart schema known previous present shared
        exact same (congrArg Schema.fingerprint (elsewhere (catalog.named _ _ replaced).symm)).symm

/-- A call that does not redefine the type of the schema keeps it. Only replacements reach a name
that is in use. -/
theorem Keeps.apply {declaration : Declaration} (keeps : catalog.Keeps offered schema)
    (apart : Schema.ApartByFingerprint offered)
    (within : ∀ other ∈ declaration.schemas, other ∈ offered)
    (unchanged : ∀ other, declaration = .replace other → other.name = schema.name →
      other = schema) : (declaration.apply catalog).Keeps offered schema := by
  rcases apply_cases catalog declaration with rejected | ⟨accepted, reaches⟩
  · rwa [rejected]
  · have elsewhere : ∀ other ∈ declaration.schemas, other.name = schema.name → other = schema := by
      intro other member same
      rcases reaches with ⟨replaced, rfl⟩ | free
      · cases List.mem_singleton.mp member
        exact unchanged _ rfl same
      · have absent := free other member
        rw [same, keeps.declared] at absent
        cases absent
    rw [accepted]
    refine List.foldlRecOn declaration.schemas Catalog.replace keeps ?_
    intro next kept other member
    exact kept.replace apart (within other member) (elsewhere other member)

theorem Keeps.declare (keeps : catalog.Keeps offered schema)
    (apart : Schema.ApartByFingerprint offered)
    (within : ∀ other ∈ Declaration.offered after, other ∈ offered)
    (unchanged : ¬ Declaration.Redefines after schema) :
    (catalog.declared after).Keeps offered schema := by
  refine List.foldlRecOn after Declaration.apply keeps fun next kept declaration member => ?_
  apply kept.apply apart
  · intro other offers
    exact within other (List.mem_flatMap.mpr ⟨declaration, member, offers⟩)
  · rintro other rfl same
    by_contra different
    exact unchanged ⟨other, member, same, different⟩

/-- A schema that is found is found as long as its type is not redefined. -/
theorem found_of_not_redefined {fingerprint : UInt32}
    (apart : Schema.ApartByFingerprint (Declaration.offered (before ++ after)))
    (found : (empty.declared before).findByFingerprint? fingerprint = some schema)
    (unchanged : ¬ Declaration.Redefines after schema) :
    ((empty.declared before).declared after).findByFingerprint? fingerprint = some schema := by
  obtain ⟨rfl, current⟩ := indexed_declared before fingerprint schema found
  have keeps : (empty.declared before).Keeps (Declaration.offered (before ++ after)) schema :=
    ⟨declaresOnly_append before after, current, found⟩
  exact (keeps.declare apart (fun _ member => mem_offered_append.mpr (.inr member)) unchanged).found

end Catalog

namespace Record

variable {bytes rest : List UInt8} {record : Record} {before after : List Declaration}

/-- What was read is read again, or a record in it is of a type that was redefined. -/
theorem read_or_redefined
    (apart : Schema.ApartByFingerprint (Declaration.offered (before ++ after)))
    (decoded : (read (Catalog.empty.declared before)).run bytes = .ok (record, rest)) :
    (read ((Catalog.empty.declared before).declared after)).run bytes = .ok (record, rest) ∨
      ∃ inner : Record, inner.toValue.OccursIn record.toValue ∧
        Declaration.Redefines after inner.schema ∧
        (read ((Catalog.empty.declared before).declared after)).run bytes =
          .error (.unknownFingerprint inner.schema.fingerprint) := by
  obtain ⟨taken, payloads, rfl, spelled⟩ := spelled_of_read decoded
  rcases spelled.read_or_forgotten (Catalog.onlyForgets_declared apart) rest with
    read | ⟨fault, ⟨fingerprint, schema, slots, occurs, found, missing, rfl⟩, failed⟩
  · exact .inl read
  · obtain ⟨rfl, _⟩ := Catalog.indexed_declared before fingerprint schema found
    refine .inr ⟨⟨schema, slots⟩, occurs, ?_, failed⟩
    by_contra unchanged
    rw [Catalog.found_of_not_redefined apart found unchanged] at missing
    cases missing

/-- Let no fingerprint be offered for two schemas in a whole run. Then bytes that were read in the
middle of it are read as the same record at its end, or they are refused for the fingerprint of a
record in it whose type was redefined in between; and they are read as the same record if no type
that occurs in it was. -/
theorem read_after_declarations (before after : List Declaration)
    (apart : Schema.ApartByFingerprint (Declaration.offered (before ++ after)))
    (decoded : (read (Catalog.empty.declared before)).run bytes = .ok (record, rest)) :
    ((read ((Catalog.empty.declared before).declared after)).run bytes = .ok (record, rest) ∨
      ∃ inner : Record, inner.toValue.OccursIn record.toValue ∧
        Declaration.Redefines after inner.schema ∧
        (read ((Catalog.empty.declared before).declared after)).run bytes =
          .error (.unknownFingerprint inner.schema.fingerprint)) ∧
    ((∀ inner : Record, inner.toValue.OccursIn record.toValue →
        ¬ Declaration.Redefines after inner.schema) →
      (read ((Catalog.empty.declared before).declared after)).run bytes = .ok (record, rest)) := by
  refine ⟨read_or_redefined apart decoded, fun unchanged => ?_⟩
  rcases read_or_redefined apart decoded with read | ⟨inner, occurs, redefined, _⟩
  · exact read
  · exact absurd redefined (unchanged inner occurs)

section Shelves

open Catalog (bookSchema volumeSchema shelfSchema)

def leafletSchema : Schema :=
  .ofFields "Leaflet" [.scalar "text" .string]

/-- Another definition of the type, by which leaflets are dated. -/
def datedSchema : Schema :=
  .ofFields "Leaflet" [.scalar "text" .string, .scalar "printed" .date]

def shelvesBefore : List Declaration :=
  [.batch [bookSchema, shelfSchema, leafletSchema]]

/-- The first call is rejected, so that only leaflets are redefined. -/
def shelvesAfter : List Declaration :=
  [.create volumeSchema, .replace datedSchema]

/-- A shelf with a book of this title. -/
def shelf (title : String) : Record :=
  ⟨shelfSchema, [.record bookSchema [.varchar title]]⟩

def shelfBytes : List UInt8 :=
  littleEndian 4 shelfSchema.fingerprint.toNat ++
    1 :: (littleEndian 4 bookSchema.fingerprint.toNat ++
      1 :: (littleEndian 4 4 ++ Text.Utf8.bytes "Emma"))

private theorem apart_shelves :
    Schema.ApartByFingerprint (Declaration.offered (shelvesBefore ++ shelvesAfter)) := by
  rw [Schema.ApartByFingerprint]
  decide +kernel

private theorem read_shelf : (read (Catalog.empty.declared shelvesBefore)).run shelfBytes =
    .ok (shelf "Emma", []) := by
  have foundShelf : (Catalog.empty.declared shelvesBefore).findByFingerprint?
      shelfSchema.fingerprint = some shelfSchema := by
    rw [shelvesBefore, Catalog.declared, List.foldl_cons, List.foldl_nil]
    decide +kernel
  have foundBook : (Catalog.empty.declared shelvesBefore).findByFingerprint?
      bookSchema.fingerprint = some bookSchema := by
    rw [shelvesBefore, Catalog.declared, List.foldl_cons, List.foldl_nil]
    decide +kernel
  have title : FieldKind.Accepts .string (littleEndian 4 4 ++ Text.Utf8.bytes "Emma")
      (.varchar "Emma") := .written (by decide) rfl trivial id
  have spelled : Spelled (Catalog.empty.declared shelvesBefore) _ (shelf "Emma") _ :=
    .record foundShelf (.nested rfl foundBook (.scalar title .done) .done)
  have decoded := spelled.read []
  simp only [List.append_nil] at decoded
  exact decoded

/-- A shelf is read with its book whatever becomes of leaflets. -/
theorem read_shelf_after_redefinition :
    Schema.ApartByFingerprint (Declaration.offered (shelvesBefore ++ shelvesAfter)) ∧
    Declaration.Redefines shelvesAfter leafletSchema ∧
    (read (Catalog.empty.declared shelvesBefore)).run shelfBytes = .ok (shelf "Emma", []) ∧
    (read ((Catalog.empty.declared shelvesBefore).declared shelvesAfter)).run shelfBytes =
      .ok (shelf "Emma", []) := by
  have redefined : Declaration.Redefines shelvesAfter leafletSchema :=
    ⟨datedSchema, List.mem_cons_of_mem _ (List.mem_singleton.mpr rfl), rfl, by decide⟩
  refine ⟨apart_shelves, redefined, read_shelf, ?_⟩
  apply (read_after_declarations shelvesBefore shelvesAfter apart_shelves read_shelf).2
  rintro inner occurs ⟨other, member, named, -⟩
  have leaflet : other.name = "Leaflet" := by
    simp [shelvesAfter] at member
    exact member ▸ rfl
  have others : (shelf "Emma").toValue.Throughout
      (Value.OnRecord fun inner => inner.schema.name ≠ "Leaflet") := by
    have shelfName : shelfSchema.name ≠ "Leaflet" := by decide
    have bookName : bookSchema.name ≠ "Leaflet" := by decide
    refine Value.throughout_iff.mpr ⟨shelfName, fun part member => ?_⟩
    cases List.mem_singleton.mp member
    refine Value.throughout_iff.mpr ⟨bookName, fun part member => ?_⟩
    cases List.mem_singleton.mp member
    exact (Value.throughout_iff_self rfl).mpr trivial
  exact others _ occurs (named.symm.trans leaflet)

end Shelves

end Record

end RowProjection
