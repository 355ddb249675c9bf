import RowProjection.Proofs.Record.PathComposition
import RowProjection.Proofs.Schema.Completeness

/-! Types that are added to a catalog. No call but a replacement takes a declared schema away, and
with all its schemas kept a walk along references goes the same way. So what was resolved once stays
as it was: the schemas that a name leads to, the schema of the name, and the paths through it. -/

namespace RowProjection

namespace Catalog

variable {catalog next : Catalog} {schema : Schema} {schemas : List Schema} {name : String}
  {run : List Declaration}

/-- All that a catalog declares is declared in the other one as well, by the same schemas. -/
def Extends (catalog next : Catalog) : Prop :=
  ∀ name schema, catalog.find? name = some schema → next.find? name = some schema

theorem Extends.refl (catalog : Catalog) : catalog.Extends catalog :=
  fun _ _ => id

/-- A type under a name that is new to the first catalog takes nothing of it away. -/
theorem Extends.replace (extended : catalog.Extends next)
    (fresh : catalog.find? schema.name = none) : catalog.Extends (next.replace schema) := by
  intro name other found
  have elsewhere : name ≠ schema.name := by
    rintro rfl
    rw [fresh] at found
    cases found
  rw [find?_replace, if_neg elsewhere]
  exact extended name other found

theorem Extends.trans {last : Catalog} (first : catalog.Extends next) (second : next.Extends last) :
    catalog.Extends last :=
  fun name schema found => second name schema (first name schema found)

/-- A call that is no replacement reaches only names that are not in use. -/
theorem extends_apply {declaration : Declaration}
    (addition : ∀ schema, declaration ≠ .replace schema) :
    catalog.Extends (declaration.apply catalog) := by
  rcases apply_cases catalog declaration with rejected | ⟨accepted, ⟨schema, replaced⟩ | free⟩
  · rw [rejected]
    exact .refl catalog
  · exact absurd replaced (addition schema)
  · rw [accepted]
    exact List.foldlRecOn declaration.schemas Catalog.replace (.refl catalog)
      fun _ extended schema member => extended.replace (free schema member)

theorem extends_declared (additions : ∀ schema, .replace schema ∉ run) :
    catalog.Extends (catalog.declared run) := by
  refine List.foldlRecOn run Declaration.apply (.refl catalog)
    fun _ extended declaration member => ?_
  refine extended.trans (extends_apply fun schema replaced => ?_)
  exact additions schema (replaced ▸ member)

/-- A walk that succeeds has met declared names only, and meets the same schemas under these in
every catalog that has them. -/
theorem Extends.walk (extended : catalog.Extends next) {visited queue : List String}
    (walked : catalog.walk visited queue = .ok schemas) :
    next.walk visited queue = .ok schemas := by
  induction visited, queue using walk.induct catalog generalizing schemas with
  | case1 visited =>
    rw [Catalog.walk] at walked ⊢
    exact walked
  | case2 visited name queue seen ih =>
    rw [walk_seen seen] at walked ⊢
    exact ih walked
  | case3 visited name queue fresh missing =>
    rw [walk_missing fresh missing] at walked
    cases walked
  | case4 visited name queue fresh schema found ih =>
    rw [walk_found fresh found] at walked
    obtain ⟨others, deeper, rfl⟩ := Except.map_eq_ok_iff.mp walked
    rw [walk_found fresh (extended name schema found), ih deeper]
    rfl

theorem Extends.closure (extended : catalog.Extends next)
    (reached : catalog.closure name = .ok schemas) : next.closure name = .ok schemas :=
  extended.walk reached

theorem Extends.resolve (extended : catalog.Extends next)
    (resolved : catalog.resolve name = .ok schema) : next.resolve name = .ok schema := by
  obtain ⟨⟨schemas, reached⟩, found⟩ := resolve_eq_ok_iff.mp resolved
  exact resolve_eq_ok_iff.mpr ⟨⟨schemas, extended.closure reached⟩, extended name schema found⟩

end Catalog

namespace FieldPath

open Catalog

/-- A path goes through schemas that resolve, and these are the same in every catalog that has
them. -/
theorem compile_extends {catalog next : Catalog} (extended : catalog.Extends next)
    {root : CustomType} {text : String} {path : FieldPath}
    (compiled : compile catalog root text = .ok path) : compile next root text = .ok path := by
  obtain ⟨schema, resolved, followed, same⟩ := compile_eq_ok_iff.mp compiled
  exact compile_eq_ok_iff.mpr
    ⟨schema, extended.resolve resolved, follow_of_resolves extended.resolve followed, same⟩

end FieldPath

namespace Catalog

/-- Let a name have a closure, in any catalog. After any run of additions to it, accepted or
rejected, the name has the same closure and resolves to the same schema; and each path that was
compiled from it compiles to the same fields and type, so that it reads the same off every value. -/
theorem resolved_after_additions (catalog : Catalog) (run : List Declaration)
    (additions : ∀ schema, .replace schema ∉ run) {name : String} {schemas : List Schema}
    (reached : catalog.closure name = .ok schemas) :
    (catalog.declared run).closure name = .ok schemas ∧
    (∃ schema, catalog.resolve name = .ok schema ∧
      (catalog.declared run).resolve name = .ok schema) ∧
    ∀ kind text path, FieldPath.compile catalog ⟨name, kind⟩ text = .ok path →
      FieldPath.compile (catalog.declared run) ⟨name, kind⟩ text = .ok path := by
  have extended : catalog.Extends (catalog.declared run) := extends_declared additions
  obtain ⟨schema, resolved⟩ := exists_resolve_of_closure reached
  exact ⟨extended.closure reached, ⟨schema, resolved, extended.resolve resolved⟩,
    fun _ _ _ compiled => FieldPath.compile_extends extended compiled⟩

section Clubs

/-- Clubs and members in a circle, and the books that they like. -/
def clubCatalog : Catalog :=
  empty.declared (clubBatches.map .batch)

/-- A shelf for the books is added. Neither another definition of books is, nor a desk for persons
that nobody declares. -/
def shelfAdditions : List Declaration :=
  [.create volumeSchema, .batch [librarySchema, shelfSchema], .batch [deskSchema]]

/-- The title of the book that the chair of the parent club likes. -/
def titlePath : FieldPath :=
  ⟨"parent.chair.favourite.title",
    [⟨"parent", 1⟩, ⟨"chair", 0⟩, ⟨"favourite", 1⟩, ⟨"title", 0⟩], .varchar⟩

private theorem closure_clubCatalog :
    clubCatalog.closure "Club" = .ok [clubSchema, memberSchema, bookSchema] := by
  have club : clubCatalog.find? "Club" = some clubSchema := rfl
  have member : clubCatalog.find? "Member" = some memberSchema := rfl
  have book : clubCatalog.find? "Book" = some bookSchema := rfl
  rw [closure, walk_found List.not_mem_nil club]
  change Except.map _ (clubCatalog.walk ["Club"] ["Member", "Club"]) = _
  rw [walk_found (by decide) member]
  change Except.map _ (Except.map _
    (clubCatalog.walk ["Member", "Club"] ["Club", "Club", "Book"])) = _
  rw [walk_seen (by decide), walk_seen (by decide), walk_found (by decide) book,
    walk_visited (by decide)]
  rfl

private theorem compile_titlePath :
    FieldPath.compile clubCatalog ⟨"Club", .compact⟩ "parent.chair.favourite.title" =
      .ok titlePath := by
  have resolves {name : String} {schema : Schema} (found : clubCatalog.find? name = some schema) :
      clubCatalog.resolve name = .ok schema := (isComplete_declared clubBatches).resolve found
  have names : FieldPath.names "parent.chair.favourite.title" =
      ["parent", "chair", "favourite", "title"] :=
    rfl
  refine FieldPath.compile_eq_ok_iff.mpr ⟨clubSchema, resolves rfl, ?_, rfl⟩
  rw [names]
  refine FieldPath.follow_cons_eq_ok_iff.mpr ⟨by decide, .composite "parent" "Club", 1, rfl,
    .inl ⟨"Club", clubSchema, _, rfl, rfl, resolves rfl, ?_, rfl⟩⟩
  refine FieldPath.follow_cons_eq_ok_iff.mpr ⟨by decide, .composite "chair" "Member", 0, rfl,
    .inl ⟨"Member", memberSchema, _, rfl, rfl, resolves rfl, ?_, rfl⟩⟩
  refine FieldPath.follow_cons_eq_ok_iff.mpr ⟨by decide, .composite "favourite" "Book", 1, rfl,
    .inl ⟨"Book", bookSchema, _, rfl, rfl, resolves rfl, ?_, rfl⟩⟩
  exact FieldPath.follow_cons_eq_ok_iff.mpr ⟨by decide, .scalar "title" .string, 0, rfl,
    .inr ⟨by decide, rfl, rfl, rfl⟩⟩

theorem clubs_after_additions :
    (∀ schema, .replace schema ∉ shelfAdditions) ∧
    clubCatalog.closure "Club" = .ok [clubSchema, memberSchema, bookSchema] ∧
    (clubCatalog.declared shelfAdditions).find? "Shelf" = some shelfSchema ∧
    (clubCatalog.declared shelfAdditions).closure "Club" =
      .ok [clubSchema, memberSchema, bookSchema] ∧
    FieldPath.compile (clubCatalog.declared shelfAdditions) ⟨"Club", .compact⟩
      "parent.chair.favourite.title" = .ok titlePath := by
  have additions : ∀ schema, .replace schema ∉ shelfAdditions := by
    simp [shelfAdditions]
  obtain ⟨reached, _, compiles⟩ :=
    resolved_after_additions clubCatalog shelfAdditions additions closure_clubCatalog
  exact ⟨additions, closure_clubCatalog, rfl, reached, compiles _ _ _ compile_titlePath⟩

end Clubs

end Catalog

end RowProjection
