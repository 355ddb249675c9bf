import Mathlib.Data.List.Perm.Basic
import RowProjection.Proofs.Schema.Batch
import RowProjection.Proofs.Schema.Resolve

/-! Declarations in another order. What a batch is checked for does not depend on the order of its
schemas, nor does what is found by a name once they are entered. Only a fingerprint that two schemas
share leads to the one that was entered last. -/

namespace RowProjection.Catalog

variable {catalog next left right : Catalog} {batch permuted : List Schema} {schema : Schema}
  {name : String}

theorem HasNewNames.perm (new : catalog.HasNewNames batch) (same : batch.Perm permuted) :
    catalog.HasNewNames permuted where
  distinct := (same.map _).nodup_iff.mp new.distinct
  free schema member := new.free schema (same.mem_iff.mpr member)

theorem Knows.perm (known : catalog.Knows batch name) (same : batch.Perm permuted) :
    catalog.Knows permuted name := by
  rcases known with ⟨schema, member, own⟩ | declared
  · exact .inl ⟨schema, same.mem_iff.mp member, own⟩
  · exact .inr declared

theorem Admits.perm (admitted : catalog.Admits batch) (same : batch.Perm permuted) :
    catalog.Admits permuted where
  toHasNewNames := admitted.toHasNewNames.perm same
  referred schema member reference refers :=
    (admitted.referred schema (same.mem_iff.mpr member) reference refers).perm same

theorem declareBatch_of_admits (admitted : catalog.Admits batch) :
    catalog.declareBatch batch = .ok (batch.foldl insert catalog) :=
  declareBatch_eq_ok_iff.mpr ⟨admitted, rfl⟩

/-- New names are declared one after another, whatever their schemas refer to. -/
theorem HasNewNames.foldlM_create (new : catalog.HasNewNames batch) :
    batch.foldlM create catalog = .ok (batch.foldl insert catalog) := by
  induction batch generalizing catalog with
  | nil => rfl
  | cons head batch ih =>
    have fresh : ¬ catalog.contains head.name = true := by
      rw [contains_eq_true_iff, new.free head (List.mem_cons_self ..)]
      simp
    rw [List.foldlM_cons, List.foldl_cons, create, if_neg fresh]
    exact ih new.tail

/-- The schema that a fingerprint leads to once another is entered. -/
def latest (fingerprint : UInt32) (found : Option Schema) (schema : Schema) : Option Schema :=
  if fingerprint = schema.fingerprint then some schema else found

theorem findByFingerprint?_foldl_insert (batch : List Schema) (catalog : Catalog)
    (fingerprint : UInt32) :
    (batch.foldl insert catalog).findByFingerprint? fingerprint =
      batch.foldl (latest fingerprint) (catalog.findByFingerprint? fingerprint) := by
  induction batch generalizing catalog with
  | nil => rfl
  | cons head batch ih =>
    rw [List.foldl_cons, List.foldl_cons, ih, findByFingerprint?_insert, latest]

/-- The last schema with a fingerprint is the same in every order, where there is only one. -/
theorem foldl_latest_perm
    (apart : ∀ left ∈ batch, ∀ right ∈ batch,
      left.fingerprint = right.fingerprint → left = right)
    (same : batch.Perm permuted) (fingerprint : UInt32) (found : Option Schema) :
    batch.foldl (latest fingerprint) found = permuted.foldl (latest fingerprint) found := by
  refine same.foldl_eq' (fun left leftMember right rightMember found => ?_) found
  simp only [latest]
  by_cases first : fingerprint = left.fingerprint
  · by_cases second : fingerprint = right.fingerprint
    · rw [apart left leftMember right rightMember (first.symm.trans second)]
    · rw [if_neg second, if_neg second]
  · rw [if_neg first, if_neg first]

/-- The walk along references asks a catalog for nothing but the schemas of names. -/
theorem walk_congr (same : ∀ name, left.find? name = right.find? name)
    (visited queue : List String) : left.walk visited queue = right.walk visited queue := by
  induction visited, queue using walk.induct left with
  | case1 visited => rw [walk, walk]
  | case2 visited name queue seen ih => rw [walk_seen seen, walk_seen seen, ih]
  | case3 visited name queue fresh missing =>
    rw [walk_missing fresh missing, walk_missing fresh ((same name).symm.trans missing)]
  | case4 visited name queue fresh schema found ih =>
    rw [walk_found fresh found, walk_found fresh ((same name).symm.trans found), ih]

/-- No two declared schemas have one fingerprint. -/
def HasOwnFingerprints (catalog : Catalog) : Prop :=
  ∀ leftName left rightName right, catalog.find? leftName = some left →
    catalog.find? rightName = some right → left.fingerprint = right.fingerprint → left = right

/-- The two catalogs answer alike whatever they are asked about a name. They do so about a
fingerprint as well, unless declared schemas share one. -/
structure AnswersAs (left right : Catalog) : Prop where
  found : ∀ name, left.find? name = right.find? name
  declared : ∀ name, left.contains name = right.contains name
  reached : ∀ name, left.closure name = right.closure name
  resolved : ∀ name, left.resolve name = right.resolve name
  identified : left.HasOwnFingerprints →
    ∀ fingerprint, left.findByFingerprint? fingerprint = right.findByFingerprint? fingerprint

theorem AnswersAs.of_found (same : ∀ name, left.find? name = right.find? name)
    (identified : left.HasOwnFingerprints →
      ∀ fingerprint, left.findByFingerprint? fingerprint = right.findByFingerprint? fingerprint) :
    left.AnswersAs right where
  found := same
  declared name := by
    have found := same name
    rw [find?, find?] at found
    rw [contains, contains, Table.contains, Table.contains, found]
  reached name := walk_congr same [] [name]
  resolved name := by rw [resolve, resolve, closure, closure, walk_congr same, same name]
  identified := identified

/-- New types that are entered in any order make catalogs that answer alike. -/
theorem HasNewNames.answersAs (new : catalog.HasNewNames batch) (same : batch.Perm permuted) :
    (batch.foldl insert catalog).AnswersAs (permuted.foldl insert catalog) := by
  apply AnswersAs.of_found
  · intro name
    apply Option.ext
    intro schema
    rw [new.find?_foldl_insert, (new.perm same).find?_foldl_insert, same.mem_iff]
  · intro own fingerprint
    have entered (schema : Schema) (member : schema ∈ batch) :
        (batch.foldl insert catalog).find? schema.name = some schema :=
      new.find?_foldl_insert.mpr (.inr ⟨member, rfl⟩)
    rw [findByFingerprint?_foldl_insert, findByFingerprint?_foldl_insert]
    apply foldl_latest_perm _ same
    intro left leftMember right rightMember
    exact own _ left _ right (entered left leftMember) (entered right rightMember)

/-- A batch is accepted in every order or in none. If it is, its schemas are also accepted one by
one in every order, and all the catalogs made in these ways answer alike. -/
theorem declared_in_any_order (catalog : Catalog) {batch permuted : List Schema}
    (same : batch.Perm permuted) :
    ((∃ next, catalog.declareBatch batch = .ok next) ↔
      ∃ next, catalog.declareBatch permuted = .ok next) ∧
    ∀ next, catalog.declareBatch batch = .ok next →
      (∃ other, catalog.declareBatch permuted = .ok other ∧ next.AnswersAs other) ∧
      ∃ other, permuted.foldlM create catalog = .ok other ∧ next.AnswersAs other := by
  have accepted {schemas others : List Schema} (same : schemas.Perm others) :
      (∃ next, catalog.declareBatch schemas = .ok next) →
        ∃ next, catalog.declareBatch others = .ok next := by
    rintro ⟨next, success⟩
    obtain ⟨admitted, _⟩ := declareBatch_eq_ok_iff.mp success
    exact ⟨_, declareBatch_of_admits (admitted.perm same)⟩
  refine ⟨⟨accepted same, accepted same.symm⟩, fun next success => ?_⟩
  obtain ⟨admitted, rfl⟩ := declareBatch_eq_ok_iff.mp success
  have new := admitted.toHasNewNames
  exact ⟨⟨_, declareBatch_of_admits (admitted.perm same), new.answersAs same⟩,
    _, (new.perm same).foldlM_create, new.answersAs same⟩

section Library

def libraryBatch : List Schema :=
  [librarySchema, shelfSchema]

theorem hasOwnFingerprints_library :
    (libraryBatch.foldl insert bookCatalog).HasOwnFingerprints := by
  have apart : ∀ left ∈ bookSchema :: libraryBatch, ∀ right ∈ bookSchema :: libraryBatch,
      left.fingerprint = right.fingerprint → left = right := by
    decide +kernel
  have only := declaresOnly_declared [.create bookSchema, .batch libraryBatch]
  intro leftName left rightName right leftFound rightFound
  exact apart left (only leftName left leftFound) right (only rightName right rightFound)

/-- The library refers to the shelf, which comes before it in one order only. -/
theorem declared_library_in_any_order :
    libraryBatch.Perm libraryBatch.reverse ∧
    ∃ next other, bookCatalog.declareBatch libraryBatch = .ok next ∧
      libraryBatch.reverse.foldlM create bookCatalog = .ok other ∧
      next.closure "Library" = other.closure "Library" ∧
      ∀ fingerprint,
        next.findByFingerprint? fingerprint = other.findByFingerprint? fingerprint := by
  have same : libraryBatch.Perm libraryBatch.reverse := (List.reverse_perm _).symm
  have accepted : bookCatalog.declareBatch libraryBatch =
      .ok (libraryBatch.foldl insert bookCatalog) := rfl
  obtain ⟨_, other, created, alike⟩ := (declared_in_any_order bookCatalog same).2 _ accepted
  exact ⟨same, _, other, accepted, created, alike.reached "Library",
    alike.identified hasOwnFingerprints_library⟩

end Library

end RowProjection.Catalog
