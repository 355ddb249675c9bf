import Mathlib.Data.List.Nodup
import RowProjection.Schema.Catalog

namespace RowProjection

/-- A call that declares types. -/
inductive Declaration where
  | create (schema : Schema)
  | replace (schema : Schema)
  | batch (schemas : List Schema)
  deriving Repr

namespace Declaration

/-- The schemas that a call offers. -/
def schemas : Declaration → List Schema
  | create schema => [schema]
  | replace schema => [schema]
  | batch schemas => schemas

/-- The catalog after a call. A call that is rejected leaves it as it was. -/
def apply (catalog : Catalog) : Declaration → Catalog
  | create schema => (catalog.create schema).toOption.getD catalog
  | replace schema => catalog.replace schema
  | batch schemas => (catalog.declareBatch schemas).toOption.getD catalog

/-- All schemas that a run of calls offers, also in rejected ones. -/
def offered (run : List Declaration) : List Schema :=
  run.flatMap schemas

end Declaration

namespace Catalog

/-- The catalog after a run of calls. -/
def declared (catalog : Catalog) (run : List Declaration) : Catalog :=
  run.foldl Declaration.apply catalog

variable {catalog : Catalog} {schema : Schema}

theorem find?_insert (name : String) :
    (catalog.insert schema).find? name = if name = schema.name then some schema
      else catalog.find? name :=
  Table.find?_insert ..

theorem find?_replace (name : String) :
    (catalog.replace schema).find? name = if name = schema.name then some schema
      else catalog.find? name := by
  unfold replace
  split <;> exact Table.find?_insert ..

theorem replace_of_fresh (fresh : catalog.find? schema.name = none) :
    catalog.replace schema = catalog.insert schema := by
  rw [replace, fresh]

/-- A replacement takes the place of what had its fingerprint, and of what it replaces. -/
theorem findByFingerprint?_replace (fingerprint : UInt32) :
    (catalog.replace schema).findByFingerprint? fingerprint =
      if fingerprint = schema.fingerprint then some schema
      else if ∃ previous, catalog.find? schema.name = some previous ∧
        fingerprint = previous.fingerprint then none
      else catalog.findByFingerprint? fingerprint := by
  cases present : catalog.find? schema.name with
  | none => simp [replace, present, findByFingerprint?_insert]
  | some previous =>
    simp only [replace, present, findByFingerprint?_insert, Option.some.injEq, exists_eq_left']
    rw [findByFingerprint?, Table.find?_erase, findByFingerprint?]

theorem firstDuplicate?_eq_none {seen : List String} {batch : List Schema}
    (none : catalog.firstDuplicate? seen batch = none) :
    (∀ schema ∈ batch, catalog.find? schema.name = .none ∧ schema.name ∉ seen) ∧
      (batch.map (·.name)).Nodup := by
  induction batch generalizing seen with
  | nil => simp
  | cons head batch ih =>
    rw [firstDuplicate?] at none
    split at none
    · cases none
    · next fresh =>
      obtain ⟨free, distinct⟩ := ih none
      have head_free : catalog.find? head.name = .none ∧ head.name ∉ seen := by
        simpa [contains, Table.contains, find?] using fresh
      refine ⟨List.forall_mem_cons.mpr ⟨head_free, fun schema member => ?_⟩, ?_⟩
      · obtain ⟨absent, unseen⟩ := free schema member
        exact ⟨absent, fun earlier => unseen (List.mem_cons_of_mem _ earlier)⟩
      · rw [List.map_cons, List.nodup_cons]
        refine ⟨fun later => ?_, distinct⟩
        obtain ⟨schema, member, same⟩ := List.mem_map.mp later
        exact (free schema member).2 (same ▸ List.mem_cons_self ..)

/-- New types are entered as replacements of nothing. -/
theorem foldl_insert_eq_replace {batch : List Schema}
    (free : ∀ schema ∈ batch, catalog.find? schema.name = none)
    (distinct : (batch.map (·.name)).Nodup) :
    batch.foldl insert catalog = batch.foldl replace catalog := by
  induction batch generalizing catalog with
  | nil => rfl
  | cons head batch ih =>
    rw [List.forall_mem_cons] at free
    rw [List.map_cons, List.nodup_cons] at distinct
    rw [List.foldl_cons, List.foldl_cons, replace_of_fresh free.1]
    refine ih (fun schema member => ?_) distinct.2
    have other : schema.name ≠ head.name := fun same =>
      distinct.1 (List.mem_map.mpr ⟨schema, member, same⟩)
    rw [find?_insert, if_neg other, free.2 schema member]

/-- A call is rejected, or it replaces the types of its names one after another. But for
replacements none of the names is in use. -/
theorem apply_cases (catalog : Catalog) (declaration : Declaration) :
    declaration.apply catalog = catalog ∨
      declaration.apply catalog = declaration.schemas.foldl replace catalog ∧
        ((∃ schema, declaration = .replace schema) ∨
          ∀ schema ∈ declaration.schemas, catalog.find? schema.name = none) := by
  cases declaration with
  | replace schema => exact .inr ⟨rfl, .inl ⟨schema, rfl⟩⟩
  | create schema =>
    by_cases taken : catalog.contains schema.name = true
    · left
      rw [Declaration.apply, create, if_pos taken]
      rfl
    · right
      have fresh : catalog.find? schema.name = none := by
        simpa [contains, Table.contains, find?] using taken
      refine ⟨?_, .inr fun other member => ?_⟩
      · rw [Declaration.apply, create, if_neg taken, Declaration.schemas, List.foldl_cons,
          replace_of_fresh fresh]
        rfl
      · rwa [List.mem_singleton.mp member]
  | batch schemas =>
    rw [Declaration.apply, declareBatch, Declaration.schemas]
    split
    · exact .inl rfl
    · next unique =>
      split
      · exact .inl rfl
      · right
        obtain ⟨free, distinct⟩ := firstDuplicate?_eq_none unique
        refine ⟨?_, .inr fun schema member => (free schema member).1⟩
        exact foldl_insert_eq_replace (fun schema member => (free schema member).1) distinct

/-- What replacements of offered types keep, a run of calls keeps. -/
theorem declared_keeps {holds : Catalog → Prop} {run : List Declaration}
    (start : holds catalog)
    (step : ∀ catalog, ∀ schema ∈ Declaration.offered run,
      holds catalog → holds (catalog.replace schema)) : holds (catalog.declared run) := by
  induction run generalizing catalog with
  | nil => exact start
  | cons declaration run ih =>
    simp only [Declaration.offered, List.flatMap_cons, List.forall_mem_append] at step
    refine ih ?_ fun catalog => (step catalog).2
    rcases apply_cases catalog declaration with rejected | ⟨accepted, _⟩
    · rwa [rejected]
    · rw [accepted]
      exact List.foldlRecOn declaration.schemas replace start
        fun next kept schema member => (step next).1 schema member kept

/-- Fingerprints lead to the schemas that have them, as they are declared now. -/
def Indexed (catalog : Catalog) : Prop :=
  ∀ fingerprint schema, catalog.findByFingerprint? fingerprint = some schema →
    schema.fingerprint = fingerprint ∧ catalog.find? schema.name = some schema

theorem indexed_empty : empty.Indexed := by
  intro fingerprint schema found
  cases found

theorem Indexed.replace (indexed : catalog.Indexed) (schema : Schema) :
    (catalog.replace schema).Indexed := by
  intro fingerprint other found
  rw [findByFingerprint?_replace] at found
  rw [find?_replace]
  split at found
  · next same =>
    cases found
    exact ⟨same.symm, if_pos rfl⟩
  · split at found
    · cases found
    · next kept =>
      obtain ⟨own, current⟩ := indexed fingerprint other found
      -- A schema of the same name would be the one that is replaced, and is not found any more.
      have different : other.name ≠ schema.name := fun same =>
        kept ⟨other, same ▸ current, own.symm⟩
      rw [if_neg different]
      exact ⟨own, current⟩

theorem indexed_declared (run : List Declaration) : (empty.declared run).Indexed :=
  declared_keeps indexed_empty fun _ schema _ indexed => indexed.replace schema

/-- A type that was declared first is found. -/
theorem findByFingerprint?_created (schema : Schema) :
    (empty.declared [.create schema]).findByFingerprint? schema.fingerprint = some schema := by
  have created : empty.declared [.create schema] = empty.insert schema := rfl
  rw [created, findByFingerprint?_insert, if_pos rfl]

/-- The declared schemas are among those offered. -/
def DeclaresOnly (offered : List Schema) (catalog : Catalog) : Prop :=
  ∀ name schema, catalog.find? name = some schema → schema ∈ offered

variable {offered : List Schema}

theorem DeclaresOnly.replace (only : catalog.DeclaresOnly offered) (member : schema ∈ offered) :
    (catalog.replace schema).DeclaresOnly offered := by
  intro name other found
  rw [find?_replace] at found
  split at found
  · cases found
    exact member
  · exact only name other found

theorem declaresOnly_declared (run : List Declaration) :
    (empty.declared run).DeclaresOnly (Declaration.offered run) := by
  apply declared_keeps
  · intro name schema found
    cases found
  · intro catalog schema member only
    exact only.replace member

/-- The declared schemas were offered, and each is found by its fingerprint. -/
structure FindsDeclared (offered : List Schema) (catalog : Catalog) : Prop where
  only : catalog.DeclaresOnly offered
  finds : ∀ name schema, catalog.find? name = some schema →
    catalog.findByFingerprint? schema.fingerprint = some schema

/-- Replacing a type takes no other type away, if no fingerprint is offered under two names. -/
theorem FindsDeclared.replace (declared : catalog.FindsDeclared offered)
    (apart : ∀ left ∈ offered, ∀ right ∈ offered,
      left.fingerprint = right.fingerprint → left.name = right.name)
    (member : schema ∈ offered) : (catalog.replace schema).FindsDeclared offered := by
  refine ⟨declared.only.replace member, fun name other found => ?_⟩
  rw [find?_replace] at found
  rw [findByFingerprint?_replace]
  split at found
  · cases found
    exact if_pos rfl
  · next elsewhere =>
    have named := catalog.named name other found
    have present := declared.only name other found
    rw [if_neg, if_neg]
    · exact declared.finds name other found
    · rintro ⟨previous, replaced, same⟩
      have shared := apart other present previous (declared.only _ _ replaced) same
      exact elsewhere (named.symm.trans (shared.trans (catalog.named _ _ replaced)))
    · intro same
      exact elsewhere (named.symm.trans (apart other present schema member same))

theorem findsDeclared_declared {run : List Declaration}
    (apart : ∀ left ∈ Declaration.offered run, ∀ right ∈ Declaration.offered run,
      left.fingerprint = right.fingerprint → left.name = right.name) :
    (empty.declared run).FindsDeclared (Declaration.offered run) := by
  apply declared_keeps
  · constructor <;> (intro name schema found; cases found)
  · intro catalog schema member declared
    exact declared.replace apart member

/-- After any run of calls a schema stands under its own name, and one that is found by a
fingerprint has it and is the one declared under its name. All declared schemas are found if no
two of different names were offered with one fingerprint. -/
theorem index_of_declarations (run : List Declaration) :
    (∀ name schema, (empty.declared run).find? name = some schema → schema.name = name) ∧
    (∀ fingerprint schema, (empty.declared run).findByFingerprint? fingerprint = some schema →
      schema.fingerprint = fingerprint ∧
        (empty.declared run).find? schema.name = some schema) ∧
    ((∀ left ∈ Declaration.offered run, ∀ right ∈ Declaration.offered run,
        left.fingerprint = right.fingerprint → left.name = right.name) →
      ∀ name schema, (empty.declared run).find? name = some schema →
        (empty.declared run).findByFingerprint? schema.fingerprint = some schema) :=
  ⟨(empty.declared run).named, indexed_declared run,
    fun apart => (findsDeclared_declared apart).finds⟩

section Shelves

def bookSchema : Schema :=
  .ofFields "Book" [.scalar "title" .string]

/-- Another definition of the type, by which titles are numbered. -/
def volumeSchema : Schema :=
  .ofFields "Book" [.scalar "title" .string, .scalar "volume" .int32]

def shelfSchema : Schema :=
  .ofFields "Shelf" [.composite "first" "Book"]

/-- The second call is rejected, and the last one redefines a type. -/
def shelfRun : List Declaration :=
  [.batch [bookSchema, shelfSchema], .create volumeSchema, .replace volumeSchema]

private theorem apart_shelfRun : ∀ left ∈ Declaration.offered shelfRun,
    ∀ right ∈ Declaration.offered shelfRun,
      left.fingerprint = right.fingerprint → left.name = right.name := by
  decide +kernel

theorem index_of_shelves :
    (∀ left ∈ Declaration.offered shelfRun, ∀ right ∈ Declaration.offered shelfRun,
      left.fingerprint = right.fingerprint → left.name = right.name) ∧
    (empty.declared shelfRun).find? "Book" = some volumeSchema ∧
    (empty.declared shelfRun).findByFingerprint? volumeSchema.fingerprint = some volumeSchema ∧
    (empty.declared shelfRun).findByFingerprint? bookSchema.fingerprint ≠ some bookSchema := by
  obtain ⟨_, current, findsAll⟩ := index_of_declarations shelfRun
  have redefined : (empty.declared shelfRun).find? "Book" = some volumeSchema := rfl
  refine ⟨apart_shelfRun, redefined, findsAll apart_shelfRun _ _ redefined, fun found => ?_⟩
  have declared : (empty.declared shelfRun).find? "Book" = some bookSchema := (current _ _ found).2
  rw [redefined] at declared
  exact absurd declared (by decide)

end Shelves

end Catalog

end RowProjection
