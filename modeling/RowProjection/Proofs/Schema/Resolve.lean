import RowProjection.Proofs.Outcome
import RowProjection.Schema.Catalog

namespace RowProjection.Catalog

variable {catalog : Catalog} {name : String} {schema : Schema}

/-- A name resolves to the schema it is declared for, if it has a closure. -/
theorem resolve_eq_ok_iff :
    catalog.resolve name = .ok schema ↔
      (∃ schemas, catalog.closure name = .ok schemas) ∧ catalog.find? name = some schema := by
  constructor
  · intro resolved
    obtain ⟨_, walked, found⟩ := Except.bind_eq_ok_iff.mp resolved
    obtain ⟨schemas, walked, _⟩ := Except.map_eq_ok_iff.mp walked
    refine ⟨⟨schemas, walked⟩, ?_⟩
    split at found
    · next schema present =>
      cases found
      exact present
    · cases found
  · rintro ⟨⟨schemas, walked⟩, found⟩
    rw [resolve, walked, found]
    rfl

theorem find?_of_resolve (resolved : catalog.resolve name = .ok schema) :
    catalog.find? name = some schema :=
  (resolve_eq_ok_iff.mp resolved).2

theorem walk_seen {visited queue : List String} (seen : name ∈ visited) :
    catalog.walk visited (name :: queue) = catalog.walk visited queue := by
  rw [walk, if_pos seen]

theorem walk_missing {visited queue : List String} (fresh : name ∉ visited)
    (missing : catalog.find? name = none) :
    catalog.walk visited (name :: queue) = .error (.missingType name) := by
  rw [walk, if_neg fresh]
  split
  · rfl
  · next schema found => exact absurd (missing.symm.trans found) (by simp)

theorem walk_found {visited queue : List String} (fresh : name ∉ visited)
    (found : catalog.find? name = some schema) :
    catalog.walk visited (name :: queue) =
      (catalog.walk (name :: visited) (queue ++ schema.references)).map (schema :: ·) := by
  rw [walk, if_neg fresh]
  split
  · next missing => exact absurd (missing.symm.trans found) (by simp)
  · next other present =>
    cases found.symm.trans present
    rfl

theorem walk_visited {visited queue : List String} (seen : ∀ name ∈ queue, name ∈ visited) :
    catalog.walk visited queue = .ok [] := by
  induction queue with
  | nil => rw [walk]
  | cons head queue ih =>
    rw [List.forall_mem_cons] at seen
    rw [walk_seen seen.1, ih seen.2]

theorem resolve_of_closed (found : catalog.find? name = some schema)
    (closed : ∀ reference ∈ schema.references, reference = name) :
    catalog.resolve name = .ok schema := by
  have seen : ∀ reference ∈ [] ++ schema.references, reference ∈ [name] := by
    simpa using closed
  refine resolve_eq_ok_iff.mpr ⟨⟨[schema], ?_⟩, found⟩
  rw [closure, walk_found List.not_mem_nil found, walk_visited seen]
  rfl

/-- The walk along references begins with the name itself, so that a name with a closure is
declared. -/
theorem exists_resolve_of_closure {schemas : List Schema}
    (reached : catalog.closure name = .ok schemas) :
    ∃ schema, catalog.resolve name = .ok schema := by
  cases found : catalog.find? name with
  | none =>
    rw [closure, walk_missing List.not_mem_nil found] at reached
    cases reached
  | some schema => exact ⟨schema, resolve_eq_ok_iff.mpr ⟨⟨schemas, reached⟩, found⟩⟩

/-- A walk that succeeds has visited a set of names in which every reference stays. -/
theorem closed_of_walk {visited queue : List String} {schemas : List Schema}
    (walked : catalog.walk visited queue = .ok schemas) :
    ∃ names : List String, (∀ name ∈ visited, name ∈ names) ∧ (∀ name ∈ queue, name ∈ names) ∧
      ∀ name ∈ names, name ∈ visited ∨ ∃ schema, catalog.find? name = some schema ∧
        ∀ reference ∈ schema.references, reference ∈ names := by
  induction visited, queue using walk.induct catalog generalizing schemas with
  | case1 visited => exact ⟨visited, fun _ => id, by simp, fun _ => .inl⟩
  | case2 visited name queue seen ih =>
    rw [walk_seen seen] at walked
    obtain ⟨names, before, queued, closed⟩ := ih walked
    exact ⟨names, before, List.forall_mem_cons.mpr ⟨before name seen, queued⟩, closed⟩
  | case3 visited name queue fresh missing =>
    rw [walk_missing fresh missing] at walked
    cases walked
  | case4 visited name queue fresh schema found ih =>
    rw [walk_found fresh found] at walked
    obtain ⟨_, deeper, _⟩ := Except.map_eq_ok_iff.mp walked
    obtain ⟨names, before, queued, closed⟩ := ih deeper
    rw [List.forall_mem_cons] at before
    rw [List.forall_mem_append] at queued
    refine ⟨names, before.2, List.forall_mem_cons.mpr ⟨before.1, queued.1⟩, ?_⟩
    intro member inside
    rcases closed member inside with seen | declared
    · rcases List.mem_cons.mp seen with rfl | seen
      · exact .inr ⟨schema, found, queued.2⟩
      · exact .inl seen
    · exact .inr declared

/-- Names that are declared, with all the names they refer to among them. -/
def Closed (catalog : Catalog) (names : List String) : Prop :=
  ∀ name ∈ names, ∃ schema, catalog.find? name = some schema ∧
    ∀ reference ∈ schema.references, reference ∈ names

theorem closed_of_resolve (resolved : catalog.resolve name = .ok schema) :
    ∃ names, name ∈ names ∧ catalog.Closed names := by
  obtain ⟨⟨schemas, walked⟩, _⟩ := resolve_eq_ok_iff.mp resolved
  obtain ⟨names, _, queued, closed⟩ := closed_of_walk walked
  refine ⟨names, queued name (List.mem_singleton.mpr rfl), fun member inside => ?_⟩
  exact (closed member inside).resolve_left List.not_mem_nil

/-- The schemas that a name leads to, through the composite fields of one after another. -/
inductive Reaches (catalog : Catalog) : String → Schema → Prop where
  | declared {name : String} {schema : Schema} (found : catalog.find? name = some schema) :
      Reaches catalog name schema
  | nested {name inner : String} {outer schema : Schema} {field : SchemaField}
      (found : catalog.find? name = some outer) (member : field ∈ outer.fields)
      (composite : field.kind = .compact) (reference : field.reference = some inner)
      (deeper : Reaches catalog inner schema) : Reaches catalog name schema

variable {names : List String} {field : SchemaField} {inner : String}

private theorem Closed.mem_of_reference (closed : catalog.Closed names) (inside : name ∈ names)
    (found : catalog.find? name = some schema) (member : field ∈ schema.fields)
    (reference : field.reference = some inner) : inner ∈ names := by
  obtain ⟨_, present, refers⟩ := closed name inside
  cases found.symm.trans present
  exact refers inner (List.mem_filterMap.mpr ⟨field, member, reference⟩)

/-- What the schemas of closed names refer to is declared, and reached as well. -/
theorem Closed.reaches_reference (closed : catalog.Closed names) (inside : name ∈ names)
    (reached : catalog.Reaches name schema) (member : field ∈ schema.fields)
    (composite : field.kind = .compact) (reference : field.reference = some inner) :
    ∃ next, catalog.find? inner = some next ∧ catalog.Reaches name next := by
  induction reached with
  | declared found =>
    have referred := closed.mem_of_reference inside found member reference
    obtain ⟨next, present, _⟩ := closed inner referred
    exact ⟨next, present, .nested found member composite reference (.declared present)⟩
  | nested found through composite' reference' _ ih =>
    obtain ⟨next, present, reached⟩ :=
      ih (closed.mem_of_reference inside found through reference') member
    exact ⟨next, present, .nested found through composite' reference' reached⟩

end RowProjection.Catalog
