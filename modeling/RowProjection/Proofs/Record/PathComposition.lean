import RowProjection.Proofs.Record.Paths

namespace RowProjection

variable {catalog next : Catalog} {schema : Schema} {text other name : String} {owner : TypeKind}
  {names rest : List String} {segments : List PathSegment} {type : DataType}

theorem FieldKind.dataType?_ne_custom {kind : FieldKind} {reference : Option String}
    {target : CustomType} (scalar : kind ≠ .compact) :
    kind.dataType? reference owner ≠ some (.custom target) := by
  cases kind with
  | compact => exact absurd rfl scalar
  | _ => nofun

/-- A schema that a name resolves to is also what its own name resolves to. -/
theorem Catalog.resolve_own_name (resolved : catalog.resolve name = .ok schema) :
    catalog.resolve schema.name = .ok schema := by
  rw [catalog.named name schema (find?_of_resolve resolved), resolved]

namespace FieldPath

theorem splitOn_append (before after : List Char) (point : Char) :
    (before ++ point :: after).splitOn point = before.splitOn point ++ after.splitOn point := by
  simp only [List.splitOn_eq_splitOnP]
  induction before with
  | nil => simp [List.splitOnP_cons_eq_if_modifyHead]
  | cons first before ih =>
    rw [List.cons_append, List.splitOnP_cons_eq_if_modifyHead,
      List.splitOnP_cons_eq_if_modifyHead, ih]
    split
    · rfl
    · obtain ⟨part, parts, split⟩ :=
        List.exists_cons_of_ne_nil (List.splitOnP_ne_nil (· == point) before)
      rw [split]
      rfl

/-- The names of a path in two parts are those of the parts. -/
theorem names_append (before after : String) :
    FieldPath.names (before ++ "." ++ after) = FieldPath.names before ++ FieldPath.names after := by
  have apart : (before ++ "." ++ after).toList = before.toList ++ '.' :: after.toList := by
    simp
  rw [FieldPath.names, apart, splitOn_append, List.map_append]
  rfl

/-- Names that are followed are followed alike under each text, and in each catalog that resolves
what the first one does. -/
theorem follow_of_resolves
    (resolves : ∀ {name schema}, catalog.resolve name = .ok schema → next.resolve name = .ok schema)
    (followed : follow catalog text owner schema names = .ok (segments, type)) :
    follow next other owner schema names = .ok (segments, type) := by
  induction names generalizing schema segments with
  | nil => exact followed
  | cons name rest ih =>
    rw [follow_cons_eq_ok_iff] at followed ⊢
    obtain ⟨nonempty, field, index, found, ⟨reference, inner, more, composite, refers, resolved,
      further, same⟩ | leaf⟩ := followed
    · exact ⟨nonempty, field, index, found,
        .inl ⟨reference, inner, more, composite, refers, resolves resolved, ih further, same⟩⟩
    · exact ⟨nonempty, field, index, found, .inr leaf⟩

/-- The text of a path is only told with its failures. -/
theorem follow_text (followed : follow catalog text owner schema names = .ok (segments, type)) :
    follow catalog other owner schema names = .ok (segments, type) :=
  follow_of_resolves id followed

theorem walk_text {value answer : Value} (walked : walk text segments value = .ok answer) :
    walk other segments value = .ok answer := by
  induction segments generalizing value with
  | nil => exact walked
  | cons segment segments ih =>
    cases value with
    | null => exact walked
    | record | object | row => exact ih walked
    | _ => cases walked

/-- Names that end at a custom type are followed further from its schema, and no other names are. -/
theorem follow_append {before after : List String} (nonempty : after ≠ [])
    (resolved : catalog.resolve schema.name = .ok schema) :
    follow catalog text owner schema (before ++ after) = .ok (segments, type) ↔
      ∃ first target inner second,
        follow catalog text owner schema before = .ok (first, .custom target) ∧
        catalog.resolve target.name = .ok inner ∧
        follow catalog text owner inner after = .ok (second, type) ∧
        segments = first ++ second := by
  -- Without names, the path ends at the schema itself, under the name that it resolves by. The
  -- schema behind a name is resolved for it, so this holds of each schema on the way.
  induction before generalizing schema segments with
  | nil =>
    constructor
    · exact fun followed => ⟨[], _, schema, segments, rfl, resolved, followed, rfl⟩
    · rintro ⟨first, target, inner, second, here, again, followed, rfl⟩
      cases here
      cases resolved.symm.trans again
      exact followed
  | cons name before ih =>
    simp only [List.cons_append, follow_cons_eq_ok_iff]
    constructor
    · rintro ⟨named, field, index, found, ⟨reference, next, more, composite, refers, reached,
        further, rfl⟩ | ⟨_, ended, _⟩⟩
      · have stays := Catalog.resolve_own_name reached
        obtain ⟨first, target, inner, second, nearer, again, last, rfl⟩ := (ih stays).mp further
        exact ⟨_, target, inner, second, ⟨named, field, index, found,
          .inl ⟨reference, next, first, composite, refers, reached, nearer, rfl⟩⟩, again, last, rfl⟩
      · exact absurd (List.append_eq_nil_iff.mp ended).2 nonempty
    · rintro ⟨_, target, inner, second, ⟨named, field, index, found, ⟨reference, next, first,
        composite, refers, reached, nearer, rfl⟩ | ⟨scalar, _, ends, _⟩⟩, again, last, rfl⟩
      · have stays := Catalog.resolve_own_name reached
        exact ⟨named, field, index, found, .inl ⟨reference, next, first ++ second, composite,
          refers, reached, (ih stays).mpr ⟨first, target, inner, second, nearer, again, last, rfl⟩,
          rfl⟩⟩
      · exact absurd ends (FieldKind.dataType?_ne_custom scalar)

/-- The parts of a path that compiles: the first leads to a custom type from which the second
compiles, and the path goes through the fields of both. -/
theorem compile_append_iff {root : CustomType} {before after : String} {path : FieldPath} :
    compile catalog root (before ++ "." ++ after) = .ok path ↔
      ∃ first target second, compile catalog root before = .ok first ∧
        first.type = .custom target ∧ compile catalog ⟨target.name, root.kind⟩ after = .ok second ∧
        path = ⟨before ++ "." ++ after, first.segments ++ second.segments, second.type⟩ := by
  constructor
  · intro compiled
    obtain ⟨schema, resolved, followed, same⟩ := compile_eq_ok_iff.mp compiled
    rw [names_append, follow_append names_ne_nil (Catalog.resolve_own_name resolved)] at followed
    obtain ⟨first, target, inner, second, nearer, reached, further, both⟩ := followed
    refine ⟨⟨before, first, .custom target⟩, target, ⟨after, second, path.type⟩,
      compile_eq_ok_iff.mpr ⟨schema, resolved, follow_text nearer, rfl⟩, rfl,
      compile_eq_ok_iff.mpr ⟨inner, reached, follow_text further, rfl⟩, ?_⟩
    rw [← same, ← both]
  · rintro ⟨first, target, second, compiled, ends, further, rfl⟩
    obtain ⟨schema, resolved, nearer, _⟩ := compile_eq_ok_iff.mp compiled
    obtain ⟨inner, reached, further, _⟩ := compile_eq_ok_iff.mp further
    rw [ends] at nearer
    refine compile_eq_ok_iff.mpr ⟨schema, resolved, ?_, rfl⟩
    rw [names_append, follow_append names_ne_nil (Catalog.resolve_own_name resolved)]
    exact ⟨first.segments, target, inner, second.segments, follow_text nearer, reached,
      follow_text further, rfl⟩

theorem extract_append_eq_ok_iff {first second path : FieldPath} {value answer : Value}
    (both : path.segments = first.segments ++ second.segments) :
    path.extract value = .ok answer ↔
      ∃ middle, first.extract value = .ok middle ∧ second.extract middle = .ok answer := by
  rw [extract, both, walk_append, Except.bind_eq_ok_iff]
  constructor
  · rintro ⟨middle, nearer, further⟩
    exact ⟨middle, walk_text nearer, walk_text further⟩
  · rintro ⟨middle, nearer, further⟩
    exact ⟨middle, walk_text nearer, walk_text further⟩

/-- A path in two parts compiles if and only if the first part compiles to a custom type and the
second part compiles from there. It then ends at the type of the second part and is as deep as both
together; what it reads off any value is what the second part reads off what the first part reads;
and where the value is null on the way, so is what the path reads. -/
theorem compile_in_parts (catalog : Catalog) (root : CustomType) (before after : String) :
    ((∃ path, compile catalog root (before ++ "." ++ after) = .ok path) ↔
      ∃ first target second, compile catalog root before = .ok first ∧
        first.type = .custom target ∧
        compile catalog ⟨target.name, root.kind⟩ after = .ok second) ∧
    ∀ path first target second, compile catalog root (before ++ "." ++ after) = .ok path →
      compile catalog root before = .ok first → first.type = .custom target →
      compile catalog ⟨target.name, root.kind⟩ after = .ok second →
      path.type = second.type ∧ path.depth = first.depth + second.depth ∧
      ∀ value : Value,
        (∀ answer, path.extract value = .ok answer ↔
          ∃ middle, first.extract value = .ok middle ∧ second.extract middle = .ok answer) ∧
        ∀ passed ahead, path.segments = passed ++ ahead →
          FieldPath.walk path.text passed value = .ok .null → path.extract value = .ok .null := by
  refine ⟨⟨?_, ?_⟩, ?_⟩
  · rintro ⟨path, compiled⟩
    obtain ⟨first, target, second, nearer, ends, further, _⟩ := compile_append_iff.mp compiled
    exact ⟨first, target, second, nearer, ends, further⟩
  · rintro ⟨first, target, second, nearer, ends, further⟩
    exact ⟨_, compile_append_iff.mpr ⟨first, target, second, nearer, ends, further, rfl⟩⟩
  · intro path first target second compiled nearer ends further
    cases compiled.symm.trans
      (compile_append_iff.mpr ⟨first, target, second, nearer, ends, further, rfl⟩)
    refine ⟨rfl, List.length_append, fun value => ⟨fun answer => extract_append_eq_ok_iff rfl, ?_⟩⟩
    intro passed ahead parts null
    rw [extract, parts, walk_append, null]
    exact walk_null ahead

section Link

open Record

def nextPath : FieldPath :=
  ⟨"next", [⟨"next", 1⟩], .custom ⟨"Link", .compact⟩⟩

def nextLabelPath : FieldPath :=
  ⟨"next.label", [⟨"next", 1⟩, ⟨"label", 0⟩], .varchar⟩

theorem compile_nextPath : compile linkCatalog ⟨"Link", .compact⟩ "next" = .ok nextPath := by
  have resolved : linkCatalog.resolve "Link" = .ok linkSchema :=
    Catalog.resolve_of_closed rfl (by decide)
  have names : FieldPath.names "next" = ["next"] := rfl
  refine compile_eq_ok_iff.mpr ⟨linkSchema, resolved, ?_, rfl⟩
  rw [names, follow_cons_eq_ok_iff]
  exact ⟨by decide, .composite "next" "Link", 1, rfl,
    .inl ⟨"Link", linkSchema, [], rfl, rfl, resolved, rfl, rfl⟩⟩

theorem compile_nextLabelPath :
    compile linkCatalog ⟨"Link", .compact⟩ "next.label" = .ok nextLabelPath := by
  have resolved : linkCatalog.resolve "Link" = .ok linkSchema :=
    Catalog.resolve_of_closed rfl (by decide)
  have names : FieldPath.names "next.label" = ["next", "label"] := rfl
  refine compile_eq_ok_iff.mpr ⟨linkSchema, resolved, ?_, rfl⟩
  rw [names, follow_cons_eq_ok_iff]
  refine ⟨by decide, .composite "next" "Link", 1, rfl,
    .inl ⟨"Link", linkSchema, [⟨"label", 0⟩], rfl, rfl, resolved, ?_, rfl⟩⟩
  rw [follow_cons_eq_ok_iff]
  exact ⟨by decide, .scalar "label" .string, 0, rfl, .inr ⟨by decide, rfl, rfl, rfl⟩⟩

/-- The label of the third link is the label behind the next one of the second. A chain of two links
has none. -/
theorem label_in_parts :
    labelPath.depth = nextPath.depth + nextLabelPath.depth ∧
    nextPath.extract (.row chainValues) = .ok (.row [.smallInt 2, .row [.tinyInt 3]]) ∧
    nextLabelPath.extract (.row [.smallInt 2, .row [.tinyInt 3]]) = .ok (.tinyInt 3) ∧
    labelPath.extract (.row chainValues) = .ok (.tinyInt 3) ∧
    labelPath.extract (.row linkValues) = .ok .null := by
  obtain ⟨compiles, parts⟩ := compile_in_parts linkCatalog ⟨"Link", .compact⟩ "next" "next.label"
  obtain ⟨path, compiled⟩ :=
    compiles.mpr ⟨nextPath, _, nextLabelPath, compile_nextPath, rfl, compile_nextLabelPath⟩
  cases compile_labelPath.symm.trans compiled
  obtain ⟨_, depths, reads⟩ := parts labelPath nextPath _ nextLabelPath compiled compile_nextPath
    rfl compile_nextLabelPath
  have first : nextPath.extract (.row chainValues) =
      .ok (.row [.smallInt 2, .row [.tinyInt 3]]) := rfl
  have second : nextLabelPath.extract (.row [.smallInt 2, .row [.tinyInt 3]]) =
      .ok (.tinyInt 3) := rfl
  refine ⟨depths, first, second, ?_, ?_⟩
  · exact ((reads (.row chainValues)).1 _).mpr ⟨_, first, second⟩
  · exact (reads (.row linkValues)).2 [⟨"next", 1⟩, ⟨"next", 1⟩] [⟨"label", 0⟩] rfl rfl

end Link

end FieldPath

end RowProjection
