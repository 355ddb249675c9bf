import RowProjection.Proofs.Outcome
import RowProjection.Proofs.Schema.Declarations

namespace RowProjection.Catalog

variable {catalog next : Catalog} {batch : List Schema} {schema : Schema} {name : String}
  {seen : List String}

/-- The names of a batch are new: no two schemas share one, and none of them is declared. -/
structure HasNewNames (catalog : Catalog) (batch : List Schema) : Prop where
  distinct : (batch.map (·.name)).Nodup
  free : ∀ schema ∈ batch, catalog.find? schema.name = none

/-- A name that is declared once the batch is: it is the name of a schema in it, or was declared
before. -/
def Knows (catalog : Catalog) (batch : List Schema) (name : String) : Prop :=
  (∃ schema ∈ batch, schema.name = name) ∨ ∃ schema, catalog.find? name = some schema

/-- A batch of new names whose references are all known with it. -/
structure Admits (catalog : Catalog) (batch : List Schema) : Prop extends
    HasNewNames catalog batch where
  referred : ∀ schema ∈ batch, ∀ reference ∈ schema.references, catalog.Knows batch reference

/-- The first schema whose name is declared, or stands earlier in the batch, has this name. -/
def FirstRepeats (catalog : Catalog) (batch : List Schema) (name : String) : Prop :=
  ∃ before schema after, batch = before ++ schema :: after ∧ schema.name = name ∧
    (catalog.contains name = true ∨ name ∈ before.map (·.name)) ∧ catalog.HasNewNames before

/-- The first field, in the order of the batch and of the fields, whose reference is not known
refers to this name. -/
def FirstUnknown (catalog : Catalog) (batch : List Schema) (name : String) : Prop :=
  ∃ before field after, batch.flatMap (·.fields) = before ++ field :: after ∧
    field.reference = some name ∧ ¬ catalog.Knows batch name ∧
    ∀ earlier ∈ before, ∀ reference, earlier.reference = some reference →
      catalog.Knows batch reference

theorem contains_eq_true_iff :
    catalog.contains name = true ↔ ∃ schema, catalog.find? name = some schema :=
  Option.isSome_iff_exists

theorem hasNewNames_of_firstDuplicate? (none : catalog.firstDuplicate? seen batch = none) :
    catalog.HasNewNames batch := by
  obtain ⟨free, distinct⟩ := firstDuplicate?_eq_none none
  exact ⟨distinct, fun schema member => (free schema member).1⟩

/-- The schema that is found repeats a declared name, or one of those before it or of those
seen. -/
theorem firstDuplicate?_eq_some (found : catalog.firstDuplicate? seen batch = some name) :
    ∃ before schema after, batch = before ++ schema :: after ∧ schema.name = name ∧
      (catalog.contains name = true ∨ name ∈ before.map (·.name) ∨ name ∈ seen) ∧
      catalog.firstDuplicate? seen before = none := by
  induction batch generalizing seen with
  | nil => cases found
  | cons head batch ih =>
    rw [firstDuplicate?] at found
    split at found
    · next repeated =>
      cases found
      exact ⟨[], head, batch, rfl, rfl, repeated.imp_right .inr, rfl⟩
    · next fresh =>
      obtain ⟨before, schema, after, rfl, same, repeats, none⟩ := ih found
      refine ⟨head :: before, schema, after, rfl, same, ?_, ?_⟩
      · rw [List.map_cons, List.mem_cons]
        rcases repeats with declared | earlier | met
        · exact .inl declared
        · exact .inr (.inl (.inr earlier))
        · rcases List.mem_cons.mp met with here | met
          · exact .inr (.inl (.inl here))
          · exact .inr (.inr met)
      · rw [firstDuplicate?, if_neg fresh, none]

theorem firstRepeats_of_firstDuplicate? (found : catalog.firstDuplicate? [] batch = some name) :
    catalog.FirstRepeats batch name := by
  obtain ⟨before, schema, after, split, same, repeats, none⟩ := firstDuplicate?_eq_some found
  refine ⟨before, schema, after, split, same, ?_, hasNewNames_of_firstDuplicate? none⟩
  simpa only [List.not_mem_nil, or_false] using repeats

theorem FirstRepeats.not_hasNewNames (repeats : catalog.FirstRepeats batch name) :
    ¬ catalog.HasNewNames batch := by
  obtain ⟨before, schema, after, rfl, rfl, declared | earlier, _⟩ := repeats
  · intro new
    obtain ⟨other, found⟩ := contains_eq_true_iff.mp declared
    have absent := new.free schema (by simp)
    rw [absent] at found
    cases found
  · intro new
    have distinct := new.distinct
    rw [List.map_append, List.map_cons, List.nodup_append] at distinct
    exact distinct.2.2 _ earlier _ (List.mem_cons_self ..) rfl

theorem firstDuplicate?_eq_none_iff :
    catalog.firstDuplicate? [] batch = none ↔ catalog.HasNewNames batch := by
  refine ⟨hasNewNames_of_firstDuplicate?, fun new => ?_⟩
  cases found : catalog.firstDuplicate? [] batch with
  | none => rfl
  | some name => exact absurd new (firstRepeats_of_firstDuplicate? found).not_hasNewNames

/-- The test of a reference fails for the names that are known. -/
theorem unknown_iff :
    (!(batch.map (·.name)).contains name && !catalog.contains name) = true ↔
      ¬ catalog.Knows batch name := by
  rw [Knows, ← contains_eq_true_iff]
  simp

theorem firstMissing?_eq_none_iff :
    catalog.firstMissing? batch = none ↔
      ∀ schema ∈ batch, ∀ reference ∈ schema.references, catalog.Knows batch reference := by
  simp only [firstMissing?, List.find?_eq_none, unknown_iff, not_not, List.mem_flatMap]
  constructor
  · intro known schema member reference refers
    exact known reference ⟨schema, member, refers⟩
  · rintro known reference ⟨schema, member, refers⟩
    exact known schema member reference refers

/-- All references of a batch, in the order of its fields. -/
theorem flatMap_references :
    batch.flatMap Schema.references = (batch.flatMap (·.fields)).filterMap (·.reference) := by
  rw [List.filterMap_flatMap]
  rfl

theorem firstUnknown_of_firstMissing? (found : catalog.firstMissing? batch = some name) :
    catalog.FirstUnknown batch name := by
  rw [firstMissing?, flatMap_references, List.find?_filterMap] at found
  obtain ⟨field, found, reference⟩ := Option.bind_eq_some_iff.mp found
  obtain ⟨unknown, before, after, split, known⟩ := List.find?_eq_some_iff_append.mp found
  refine ⟨before, field, after, split, reference, ?_, fun earlier member other refers => ?_⟩
  · rw [reference, Option.any_some, unknown_iff] at unknown
    exact unknown
  · have passed := known earlier member
    rw [refers, Option.any_some, Bool.not_eq_true', ← Bool.not_eq_true, unknown_iff,
      not_not] at passed
    exact passed

/-- An accepted batch is entered whole. -/
theorem declareBatch_eq_ok_iff :
    catalog.declareBatch batch = .ok next ↔
      catalog.Admits batch ∧ next = batch.foldl insert catalog := by
  rw [declareBatch]
  split
  · next name repeated =>
    constructor
    · intro accepted
      cases accepted
    · rintro ⟨admitted, _⟩
      exact absurd admitted.toHasNewNames (firstRepeats_of_firstDuplicate? repeated).not_hasNewNames
  · next unique =>
    have new := firstDuplicate?_eq_none_iff.mp unique
    split
    · next name missing =>
      constructor
      · intro accepted
        cases accepted
      · rintro ⟨admitted, _⟩
        have none := firstMissing?_eq_none_iff.mpr admitted.referred
        rw [none] at missing
        cases missing
    · next complete =>
      have referred := firstMissing?_eq_none_iff.mp complete
      constructor
      · rintro ⟨⟩
        exact ⟨⟨new, referred⟩, rfl⟩
      · rintro ⟨_, rfl⟩
        rfl

/-- A rejected batch is refused for its first repeated name; and only if it has none, for its first
reference that is not known. -/
theorem declareBatch_eq_error {error : Error}
    (rejected : catalog.declareBatch batch = .error error) :
    (∃ name, error = .duplicateType name ∧ catalog.FirstRepeats batch name) ∨
      ∃ name, error = .missingType name ∧ catalog.HasNewNames batch ∧
        catalog.FirstUnknown batch name := by
  rw [declareBatch] at rejected
  split at rejected
  · next name repeated =>
    cases rejected
    exact .inl ⟨name, rfl, firstRepeats_of_firstDuplicate? repeated⟩
  · next unique =>
    split at rejected
    · next name missing =>
      cases rejected
      exact .inr ⟨name, rfl, firstDuplicate?_eq_none_iff.mp unique,
        firstUnknown_of_firstMissing? missing⟩
    · cases rejected

/-- The names behind the first are still new once it is entered. -/
theorem HasNewNames.tail (new : catalog.HasNewNames (schema :: batch)) :
    (catalog.insert schema).HasNewNames batch := by
  obtain ⟨distinct, free⟩ := new
  rw [List.map_cons, List.nodup_cons] at distinct
  refine ⟨distinct.2, fun other member => ?_⟩
  have different : other.name ≠ schema.name := fun same =>
    distinct.1 (List.mem_map.mpr ⟨other, member, same⟩)
  rw [find?_insert, if_neg different, free other (List.mem_cons_of_mem _ member)]

/-- Entering schemas under new names adds them, and changes no other. -/
theorem HasNewNames.find?_foldl_insert (new : catalog.HasNewNames batch) :
    (batch.foldl insert catalog).find? name = some schema ↔
      catalog.find? name = some schema ∨ schema ∈ batch ∧ schema.name = name := by
  induction batch generalizing catalog with
  | nil => simp
  | cons head batch ih =>
    have fresh := new.free head (List.mem_cons_self ..)
    rw [List.foldl_cons, ih new.tail, find?_insert, List.mem_cons]
    by_cases same : name = head.name
    · subst same
      rw [if_pos rfl, fresh, Option.some.injEq]
      constructor
      · rintro (rfl | ⟨member, shared⟩)
        · exact .inr ⟨.inl rfl, rfl⟩
        · exact .inr ⟨.inr member, shared⟩
      · rintro (absent | ⟨rfl | member, shared⟩)
        · cases absent
        · exact .inl rfl
        · exact .inr ⟨member, shared⟩
    · rw [if_neg same]
      constructor
      · rintro (declared | ⟨member, own⟩)
        · exact .inl declared
        · exact .inr ⟨.inr member, own⟩
      · rintro (declared | ⟨rfl | member, own⟩)
        · exact .inl declared
        · exact absurd own.symm same
        · exact .inr ⟨member, own⟩

section Outcome

variable {α β : Type} {first : Change α} {following : α → Change β} {error : Error}
  {names : List String}

theorem outcome_bind_ok {answer : α} (answered : catalog.outcome first = (.ok answer, next)) :
    catalog.outcome (first >>= following) = next.outcome (following answer) := by
  rw [outcome] at answered
  rw [outcome, ExceptT.run_bind, StateT.run_bind, answered]
  rfl

theorem outcome_bind_error (failed : catalog.outcome first = (.error error, next)) :
    catalog.outcome (first >>= following) = (.error error, next) := by
  rw [outcome] at failed
  rw [outcome, ExceptT.run_bind, StateT.run_bind, failed]
  rfl

theorem outcome_get : catalog.outcome get = (.ok catalog, catalog) :=
  rfl

theorem outcome_checkName (catalog : Catalog) (seen : List String) (schema : Schema) :
    catalog.outcome (checkName seen schema) =
      (if catalog.contains schema.name = true ∨ schema.name ∈ seen then
        .error (.duplicateType schema.name) else .ok (schema.name :: seen), catalog) := by
  rw [checkName, outcome_bind_ok outcome_get]
  split <;> rfl

/-- The pass over the names stops at the first repeated one, and changes nothing. -/
theorem outcome_checkNames (catalog : Catalog) (seen : List String) (batch : List Schema) :
    catalog.outcome (batch.foldlM checkName seen) =
      ((catalog.firstDuplicate? seen batch).elim (.ok ((batch.map (·.name)).reverse ++ seen))
        fun name => .error (.duplicateType name), catalog) := by
  induction batch generalizing seen with
  | nil => rfl
  | cons head batch ih =>
    have checked := outcome_checkName catalog seen head
    rw [List.foldlM_cons, firstDuplicate?]
    split at checked
    · next repeated => rw [outcome_bind_error checked, if_pos repeated, Option.elim_some]
    · next new =>
      rw [outcome_bind_ok checked, ih, if_neg new, List.map_cons, List.reverse_cons,
        List.append_assoc, List.singleton_append]

theorem outcome_checkReferences (catalog : Catalog) (names : List String) (schema : Schema) :
    catalog.outcome (checkReferences names schema) =
      ((schema.references.find? fun name => !names.contains name && !catalog.contains name).elim
        (.ok ()) fun name => .error (.missingType name), catalog) := by
  rw [checkReferences, outcome_bind_ok outcome_get]
  split
  · next found => rw [found]; rfl
  · next none => rw [none]; rfl

/-- The pass over the references stops at the first one that is not known, and changes nothing. -/
theorem outcome_checkAllReferences (catalog : Catalog) (names : List String)
    (batch : List Schema) :
    catalog.outcome (forM batch (checkReferences names)) =
      (((batch.flatMap Schema.references).find? fun name =>
        !names.contains name && !catalog.contains name).elim
          (.ok ()) fun name => .error (.missingType name), catalog) := by
  induction batch with
  | nil => rfl
  | cons head batch ih =>
    have checked := outcome_checkReferences catalog names head
    rw [List.forM_cons, List.flatMap_cons, List.find?_append]
    cases found : head.references.find? fun name =>
        !names.contains name && !catalog.contains name with
    | some name =>
      rw [found, Option.elim_some] at checked
      rw [outcome_bind_error checked, Option.some_or, Option.elim_some]
    | none =>
      rw [found, Option.elim_none] at checked
      rw [outcome_bind_ok checked, ih, Option.none_or]

theorem outcome_enterAll :
    catalog.outcome (forM batch fun schema => modify (·.insert schema)) =
      (.ok (), batch.foldl insert catalog) := by
  induction batch generalizing catalog with
  | nil => rfl
  | cons head batch ih =>
    have entered : catalog.outcome (modify (·.insert head)) = (.ok (), catalog.insert head) := rfl
    rw [List.forM_cons, outcome_bind_ok entered, ih, List.foldl_cons]

end Outcome

/-- A batch that is declared on the catalog itself is entered whole, or it leaves the catalog as it
was. -/
theorem outcome_declareAll :
    catalog.outcome (declareAll batch) =
      ((catalog.declareBatch batch).map fun _ => (), (catalog.declareBatch batch).toOption.getD
        catalog) := by
  have checked := outcome_checkNames catalog [] batch
  rw [declareAll, declareBatch]
  cases repeated : catalog.firstDuplicate? [] batch with
  | some name =>
    rw [repeated, Option.elim_some] at checked
    rw [outcome_bind_error checked]
    rfl
  | none =>
    rw [repeated, Option.elim_none] at checked
    have referred := outcome_checkAllReferences catalog
      ((batch.map Schema.name).reverse ++ []) batch
    have missing : ((batch.flatMap Schema.references).find? fun name =>
        !((batch.map Schema.name).reverse ++ []).contains name && !catalog.contains name) =
          catalog.firstMissing? batch := by
      simp [firstMissing?]
    rw [missing] at referred
    rw [outcome_bind_ok checked]
    cases lacking : catalog.firstMissing? batch with
    | some name =>
      rw [lacking, Option.elim_some] at referred
      rw [outcome_bind_error referred]
      rfl
    | none =>
      rw [lacking, Option.elim_none] at referred
      rw [outcome_bind_ok referred, outcome_enterAll]
      rfl

/-- A batch is accepted exactly if all its names are new and all its references are known with it.
Then the catalog has the types it had and those of the batch. Otherwise the catalog that the call
leaves behind is the one it was made on, and the error names the first fault. -/
theorem declareBatch_all_or_nothing (catalog : Catalog) (batch : List Schema) :
    ((∃ next, catalog.declareBatch batch = .ok next) ↔ catalog.Admits batch) ∧
    (∀ next, catalog.declareBatch batch = .ok next →
      catalog.outcome (declareAll batch) = (.ok (), next) ∧
      ∀ name schema, next.find? name = some schema ↔
        catalog.find? name = some schema ∨ schema ∈ batch ∧ schema.name = name) ∧
    (∀ error, catalog.declareBatch batch = .error error →
      catalog.outcome (declareAll batch) = (.error error, catalog) ∧
      ((∃ name, error = .duplicateType name ∧ catalog.FirstRepeats batch name) ∨
        ∃ name, error = .missingType name ∧ catalog.HasNewNames batch ∧
          catalog.FirstUnknown batch name)) := by
  refine ⟨⟨?_, ?_⟩, ?_, ?_⟩
  · rintro ⟨next, accepted⟩
    exact (declareBatch_eq_ok_iff.mp accepted).1
  · intro admitted
    exact ⟨_, declareBatch_eq_ok_iff.mpr ⟨admitted, rfl⟩⟩
  · intro next accepted
    obtain ⟨admitted, rfl⟩ := declareBatch_eq_ok_iff.mp accepted
    refine ⟨?_, fun name schema => admitted.toHasNewNames.find?_foldl_insert⟩
    rw [outcome_declareAll, accepted]
    rfl
  · intro error rejected
    refine ⟨?_, declareBatch_eq_error rejected⟩
    rw [outcome_declareAll, rejected]
    rfl

section Library

/-- Refers to itself, and to a type that may stand behind it in a batch. -/
def librarySchema : Schema :=
  .ofFields "Library" [.composite "branch" "Library", .composite "entrance" "Shelf"]

/-- Refers to a type that is never declared. -/
def deskSchema : Schema :=
  .ofFields "Desk" [.composite "shelf" "Shelf", .composite "clerk" "Person"]

def bookCatalog : Catalog :=
  empty.insert bookSchema

theorem declareBatch_library :
    bookCatalog.Admits [librarySchema, shelfSchema] ∧
    bookCatalog.outcome (declareAll [librarySchema, volumeSchema]) =
      (.error (.duplicateType "Book"), bookCatalog) ∧
    bookCatalog.outcome (declareAll [deskSchema, shelfSchema]) =
      (.error (.missingType "Person"), bookCatalog) ∧
    bookCatalog.FirstUnknown [deskSchema, shelfSchema] "Person" := by
  obtain ⟨accepts, _, _⟩ := declareBatch_all_or_nothing bookCatalog [librarySchema, shelfSchema]
  obtain ⟨_, _, repeats⟩ := declareBatch_all_or_nothing bookCatalog [librarySchema, volumeSchema]
  obtain ⟨_, _, lacks⟩ := declareBatch_all_or_nothing bookCatalog [deskSchema, shelfSchema]
  have repeated : bookCatalog.declareBatch [librarySchema, volumeSchema] =
      .error (.duplicateType "Book") := rfl
  have lacking : bookCatalog.declareBatch [deskSchema, shelfSchema] =
      .error (.missingType "Person") := rfl
  obtain ⟨unchanged, fault⟩ := lacks _ lacking
  refine ⟨accepts.mp ⟨_, rfl⟩, (repeats _ repeated).1, unchanged, ?_⟩
  rcases fault with ⟨name, duplicate, _⟩ | ⟨name, missing, _, unknown⟩
  · cases duplicate
  · cases missing
    exact unknown

end Library

end RowProjection.Catalog
