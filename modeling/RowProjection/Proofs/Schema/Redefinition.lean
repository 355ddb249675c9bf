import RowProjection.Proofs.Schema.Declarations

namespace RowProjection.Catalog

variable {catalog : Catalog} {schema other : Schema} {name : String} {fingerprint : UInt32}

/-- The definition that a schema replaces, if there is one, does not have this fingerprint. -/
def ReplacesNoneWith (catalog : Catalog) (schema : Schema) (fingerprint : UInt32) : Prop :=
  ∀ previous, catalog.find? schema.name = some previous → previous.fingerprint ≠ fingerprint

theorem find?_replace_of_ne (elsewhere : name ≠ schema.name) :
    (catalog.replace schema).find? name = catalog.find? name := by
  rw [find?_replace, if_neg elsewhere]

theorem findByFingerprint?_replace_self :
    (catalog.replace schema).findByFingerprint? schema.fingerprint = some schema := by
  rw [findByFingerprint?_replace, if_pos rfl]

theorem findByFingerprint?_replace_of_ne (elsewhere : fingerprint ≠ schema.fingerprint)
    (kept : catalog.ReplacesNoneWith schema fingerprint) :
    (catalog.replace schema).findByFingerprint? fingerprint =
      catalog.findByFingerprint? fingerprint := by
  rw [findByFingerprint?_replace, if_neg elsewhere, if_neg]
  rintro ⟨previous, replaced, same⟩
  exact kept previous replaced same.symm

/-- After any run of calls, a type that is declared and found by its fingerprint is still declared
when a type of another name is redefined. It is still found as well, if neither definition of that
type has its fingerprint; and if the new one has it, the fingerprint leads to that one. -/
theorem others_after_replace (run : List Declaration) (schema other : Schema)
    (declared : (empty.declared run).find? other.name = some other)
    (elsewhere : other.name ≠ schema.name)
    (found : (empty.declared run).findByFingerprint? other.fingerprint = some other) :
    ((empty.declared run).replace schema).find? other.name = some other ∧
    (other.fingerprint ≠ schema.fingerprint →
      (empty.declared run).ReplacesNoneWith schema other.fingerprint →
      ((empty.declared run).replace schema).findByFingerprint? other.fingerprint = some other) ∧
    (other.fingerprint = schema.fingerprint →
      ((empty.declared run).replace schema).findByFingerprint? other.fingerprint =
        some schema) := by
  refine ⟨?_, fun apart kept => ?_, fun shared => ?_⟩
  · rw [find?_replace_of_ne elsewhere, declared]
  · rw [findByFingerprint?_replace_of_ne apart kept, found]
  · rw [shared, findByFingerprint?_replace_self]

section Shelves

def shelvesRun : List Declaration := [.batch [bookSchema, shelfSchema]]

/-- Books are redefined on a shelf that was declared with them. -/
theorem shelf_after_replace :
    (empty.declared shelvesRun).find? "Shelf" = some shelfSchema ∧
    ((empty.declared shelvesRun).replace volumeSchema).findByFingerprint?
      shelfSchema.fingerprint = some shelfSchema := by
  have declared : (empty.declared shelvesRun).find? shelfSchema.name = some shelfSchema := rfl
  have found : (empty.declared shelvesRun).findByFingerprint? shelfSchema.fingerprint =
      some shelfSchema := by
    decide +kernel
  have kept : (empty.declared shelvesRun).ReplacesNoneWith volumeSchema
      shelfSchema.fingerprint := by
    intro previous replaced
    have current : (empty.declared shelvesRun).find? volumeSchema.name = some bookSchema := rfl
    cases current.symm.trans replaced
    decide +kernel
  obtain ⟨_, still, _⟩ :=
    others_after_replace shelvesRun volumeSchema shelfSchema declared (by decide) found
  exact ⟨declared, still (by decide +kernel) kept⟩

end Shelves

section Collision

/-- Two names with the same checksum, which stays the same with equal fields behind them. -/
def plumlessSchema : Schema :=
  .ofFields "plumless" [.scalar "title" .string]

def buckerooSchema : Schema :=
  .ofFields "buckeroo" [.scalar "title" .string]

/-- The type that was declared first is hidden by a type of another name. -/
theorem plumless_hidden :
    plumlessSchema.name ≠ buckerooSchema.name ∧
    (empty.declared [.create plumlessSchema]).find? "plumless" = some plumlessSchema ∧
    (empty.declared [.create plumlessSchema]).findByFingerprint? plumlessSchema.fingerprint =
      some plumlessSchema ∧
    ((empty.declared [.create plumlessSchema]).replace buckerooSchema).findByFingerprint?
      plumlessSchema.fingerprint = some buckerooSchema := by
  have shared : plumlessSchema.fingerprint = buckerooSchema.fingerprint := by decide +kernel
  refine ⟨by decide, rfl, findByFingerprint?_created plumlessSchema, ?_⟩
  rw [shared, findByFingerprint?_replace_self]

end Collision

end RowProjection.Catalog
