import RowProjection.Proofs.Schema.Batch
import RowProjection.Proofs.Schema.Resolve

namespace RowProjection.Catalog

variable {catalog next : Catalog} {batch : List Schema} {schema : Schema} {name : String}

/-- Every reference of a declared schema leads to a declared schema. -/
def IsComplete (catalog : Catalog) : Prop :=
  ∀ name schema, catalog.find? name = some schema → ∀ reference ∈ schema.references,
    ∃ referred, catalog.find? reference = some referred

/-- Every declared name resolves. -/
def Resolves (catalog : Catalog) : Prop :=
  ∀ name, catalog.contains name = true → ∃ schema, catalog.resolve name = .ok schema

theorem IsComplete.walk (complete : catalog.IsComplete) {visited queue : List String}
    (declared : ∀ name ∈ queue, ∃ schema, catalog.find? name = some schema) :
    ∃ schemas, catalog.walk visited queue = .ok schemas := by
  induction visited, queue using walk.induct catalog with
  | case1 visited => exact ⟨[], by rw [Catalog.walk]⟩
  | case2 visited name queue seen ih =>
    rw [walk_seen seen]
    exact ih (List.forall_mem_cons.mp declared).2
  | case3 visited name queue fresh missing =>
    obtain ⟨schema, found⟩ := declared name (List.mem_cons_self ..)
    rw [missing] at found
    cases found
  | case4 visited name queue fresh schema found ih =>
    rw [List.forall_mem_cons] at declared
    have further : ∀ other ∈ queue ++ schema.references,
        ∃ schema, catalog.find? other = some schema :=
      List.forall_mem_append.mpr ⟨declared.2, complete name schema found⟩
    obtain ⟨schemas, walked⟩ := ih further
    refine ⟨schema :: schemas, ?_⟩
    rw [walk_found fresh found, walked]
    rfl

theorem IsComplete.closure (complete : catalog.IsComplete)
    (found : catalog.find? name = some schema) :
    ∃ schemas, catalog.closure name = .ok schemas :=
  complete.walk fun _ member => ⟨schema, by rwa [List.mem_singleton.mp member]⟩

theorem IsComplete.resolve (complete : catalog.IsComplete)
    (found : catalog.find? name = some schema) :
    catalog.resolve name = .ok schema :=
  resolve_eq_ok_iff.mpr ⟨complete.closure found, found⟩

/-- A name that resolves has its own references declared, among all that it reaches. -/
theorem Resolves.isComplete (resolves : catalog.Resolves) : catalog.IsComplete := by
  intro name schema found reference refers
  obtain ⟨resolved, success⟩ := resolves name (contains_eq_true_iff.mpr ⟨schema, found⟩)
  obtain ⟨names, inside, closed⟩ := closed_of_resolve success
  obtain ⟨own, present, among⟩ := closed name inside
  cases found.symm.trans present
  obtain ⟨referred, declared, _⟩ := closed reference (among reference refers)
  exact ⟨referred, declared⟩

theorem IsComplete.resolves (complete : catalog.IsComplete) : catalog.Resolves := by
  intro name declared
  obtain ⟨schema, found⟩ := contains_eq_true_iff.mp declared
  exact ⟨schema, complete.resolve found⟩

theorem isComplete_empty : empty.IsComplete := by
  intro name schema found
  cases found

/-- An accepted batch takes nothing away, and its own references are known with it. -/
theorem IsComplete.declareBatch (complete : catalog.IsComplete)
    (accepted : catalog.declareBatch batch = .ok next) : next.IsComplete := by
  obtain ⟨admitted, rfl⟩ := declareBatch_eq_ok_iff.mp accepted
  have entered {name : String} {schema : Schema} :
      (batch.foldl insert catalog).find? name = some schema ↔
        catalog.find? name = some schema ∨ schema ∈ batch ∧ schema.name = name :=
    admitted.toHasNewNames.find?_foldl_insert
  intro name schema found reference refers
  have known : catalog.Knows batch reference := by
    rcases entered.mp found with declared | ⟨member, _⟩
    · exact .inr (complete name schema declared reference refers)
    · exact admitted.referred schema member reference refers
  rcases known with ⟨other, member, same⟩ | ⟨other, declared⟩
  · exact ⟨other, entered.mpr (.inr ⟨member, same⟩)⟩
  · exact ⟨other, entered.mpr (.inl declared)⟩

theorem IsComplete.apply (complete : catalog.IsComplete) (batch : List Schema) :
    ((Declaration.batch batch).apply catalog).IsComplete := by
  rw [Declaration.apply]
  cases answer : catalog.declareBatch batch with
  | error error => exact complete
  | ok next => exact complete.declareBatch answer

theorem isComplete_declared (batches : List (List Schema)) :
    (empty.declared (batches.map .batch)).IsComplete := by
  rw [declared, List.foldl_map]
  exact List.foldlRecOn batches _ isComplete_empty fun _ complete batch _ => complete.apply batch

/-- After any run of batches, accepted or rejected, each declared name has a closure and resolves to
its schema. And an accepted batch leaves all declared names resolving, if they did before. -/
theorem resolves_after_batches (batches : List (List Schema)) :
    (∀ name schema, (empty.declared (batches.map .batch)).find? name = some schema →
      (∃ schemas, (empty.declared (batches.map .batch)).closure name = .ok schemas) ∧
        (empty.declared (batches.map .batch)).resolve name = .ok schema) ∧
    ∀ (catalog next : Catalog) (batch : List Schema), catalog.Resolves →
      catalog.declareBatch batch = .ok next → next.Resolves := by
  refine ⟨fun name schema found => ?_, fun catalog next batch resolves accepted => ?_⟩
  · have complete := isComplete_declared batches
    exact ⟨complete.closure found, complete.resolve found⟩
  · exact (resolves.isComplete.declareBatch accepted).resolves

section Circle

/-- Two types that refer to each other, one of them to an earlier type. -/
def memberSchema : Schema :=
  .ofFields "Member" [.composite "club" "Club", .composite "favourite" "Book"]

def clubSchema : Schema :=
  .ofFields "Club" [.composite "chair" "Member", .composite "parent" "Club"]

/-- The second batch is rejected, as it refers to a type that comes later. -/
def clubBatches : List (List Schema) :=
  [[bookSchema], [memberSchema], [clubSchema, memberSchema]]

theorem resolves_bookCatalog : bookCatalog.Resolves := by
  intro name declared
  obtain ⟨schema, found⟩ := contains_eq_true_iff.mp declared
  rw [bookCatalog, find?_insert] at found
  split at found
  · next same =>
    subst same
    have alone : bookCatalog.resolve bookSchema.name = .ok bookSchema :=
      resolve_of_closed rfl (by decide)
    exact ⟨bookSchema, alone⟩
  · cases found

theorem resolves_after_clubs :
    (empty.declared (clubBatches.map .batch)).resolve "Club" = .ok clubSchema ∧
    bookCatalog.Resolves ∧
    ∃ next, bookCatalog.declareBatch [clubSchema, memberSchema] = .ok next ∧ next.Resolves := by
  obtain ⟨reached, kept⟩ := resolves_after_batches clubBatches
  refine ⟨(reached "Club" clubSchema rfl).2, resolves_bookCatalog, _, rfl, ?_⟩
  exact kept bookCatalog _ [clubSchema, memberSchema] resolves_bookCatalog rfl

end Circle

end RowProjection.Catalog
