import RowProjection.Proofs.Record.Typing
import RowProjection.Proofs.Schema.Resolve
import RowProjection.Proofs.Target.Writes

namespace RowProjection

namespace CompactTarget

/-- The states of a target of records: it is started, written and concluded in any order. All
injectors are its own, and the records within the values are those of the catalog. -/
inductive Reached (catalog : Catalog) (schema : Schema) : CompactTarget → Prop where
  | fresh : Reached catalog schema (withSchema catalog schema)
  | start {target : CompactTarget} (earlier : Reached catalog schema target) :
      Reached catalog schema target.start
  | write {target maker : CompactTarget} {path : Option String} {type : DataType}
      {injector : Injector} {value : Value} (earlier : Reached catalog schema target)
      (own : Reached catalog schema maker) (made : maker.injector path type = .ok injector)
      (bound : value.BoundTo catalog) : Reached catalog schema (target.write injector value).2
  | conclude {target : CompactTarget} (earlier : Reached catalog schema target) :
      Reached catalog schema target.conclude.2

/-- The target keeps its catalog and its schema, and its slots are filled with what the fields
hold. -/
structure Keeps (catalog : Catalog) (schema : Schema) (target : CompactTarget) : Prop where
  sameCatalog : target.catalog = catalog
  sameSchema : target.schema = schema
  filled : List.Forall₂ (Record.Fills catalog) schema.fields target.builder.slots

theorem Reached.keeps {catalog : Catalog} {schema : Schema} {target : CompactTarget}
    (reached : Reached catalog schema target) : Keeps catalog schema target := by
  induction reached with
  | fresh => exact ⟨rfl, rfl, Record.fills_emptySlots schema.fields⟩
  | start _ ih =>
    refine ⟨ih.sameCatalog, ih.sameSchema, ?_⟩
    rw [← ih.sameSchema]
    exact Record.fills_emptySlots _
  | @write target maker path type injector value _ _ made bound ih own =>
    obtain ⟨name, field, index, rfl, found, rfl⟩ := injector_eq_ok made
    rw [own.sameSchema] at found
    rcases target.write_cases _ value with same | ⟨_, _, _, converted, operation, stored, same⟩
    · rw [same]
      exact ih
    · cases operation
      rw [ih.sameCatalog] at stored
      have fills := Record.fills_of_convertField (Record.converts bound) stored
      rw [same]
      exact ⟨ih.sameCatalog, ih.sameSchema,
        Record.fills_set ih.filled (Schema.getElem?_of_field? found) fills⟩
  | @conclude target _ ih =>
    rcases target.conclude_cases with ⟨failure, same⟩ | same
    · rw [same]
      exact ih
    · rw [same]
      exact ⟨ih.sameCatalog, ih.sameSchema, ih.filled⟩

/-- What a target of records concludes is a well typed record of its schema. -/
theorem Reached.concluded {catalog : Catalog} {schema : Schema} {target after : CompactTarget}
    {result : Value} (reached : Reached catalog schema target)
    (success : target.conclude = (.ok result, after)) :
    ∃ values, result = .record schema values ∧ Record.WellTyped catalog ⟨schema, values⟩ := by
  have keeps := reached.keeps
  have sameSchema : target.builder.schema = schema := keeps.sameSchema
  rcases target.conclude_cases with ⟨failure, same⟩ | same
  · rw [same] at success
    cases success
  · rw [same] at success
    cases success
    refine ⟨target.builder.slots, ?_, Record.wellTyped_of_fills keeps.filled⟩
    rw [RecordBuilder.build, Record.toValue, sameSchema]

end CompactTarget

/-- Records that are converted from a value, and records that a target concludes, are well typed at
every depth and have bytes unless a text within them is too long. -/
theorem Record.wellTyped_of_made (catalog : Catalog) :
    (∀ schema value record, Value.BoundTo catalog value →
      ofValue catalog schema value = .ok record →
        record.WellTyped catalog ∧ record.FailsOnlyForLongText) ∧
    ∀ schema target result after, CompactTarget.Reached catalog schema target →
      target.conclude = (.ok result, after) →
        ∃ values, result = .record schema values ∧ WellTyped catalog ⟨schema, values⟩ ∧
          FailsOnlyForLongText ⟨schema, values⟩ := by
  constructor
  · intro schema value record bound success
    have typed := (converts bound schema record success).1
    exact ⟨typed, typed.failsOnlyForLongText⟩
  · intro schema target result after reached success
    obtain ⟨values, same, typed⟩ := reached.concluded success
    exact ⟨values, same, typed, typed.failsOnlyForLongText⟩

section Nodes

/-- A schema that refers to itself. -/
def nodeSchema : Schema :=
  .ofFields "Node" [.scalar "text" .string, .composite "next" "Node"]

def nodeCatalog : Catalog :=
  Catalog.empty.insert nodeSchema

/-- A row for a node, with a row and a record for the next ones in it. -/
def nodeRow : Value :=
  .row [.varchar "first", .row [.varchar "second", .record nodeSchema [.varchar "third", .null]]]

def nextInjector : Injector :=
  ⟨some "next", .compact 1 .compact (some "Node")⟩

/-- A target of nodes to whose second field the row was written. -/
def nodeTarget : CompactTarget :=
  ((CompactTarget.withSchema nodeCatalog nodeSchema).start.write nextInjector nodeRow).2

private theorem boundTo_nodeRow : nodeRow.BoundTo nodeCatalog := by
  have text (content : String) : (Value.varchar content).BoundTo nodeCatalog :=
    (Value.throughout_iff_self rfl).mpr trivial
  have null : Value.null.BoundTo nodeCatalog :=
    (Value.throughout_iff_self rfl).mpr trivial
  have typed : Record.IsTyped nodeCatalog ⟨nodeSchema, [.varchar "third", .null]⟩ :=
    .cons (.scalar (List.mem_singleton.mpr rfl) (by decide)) (.cons .null .nil)
  have record : (Value.record nodeSchema [.varchar "third", .null]).BoundTo nodeCatalog :=
    Value.throughout_iff.mpr ⟨⟨rfl, typed⟩, by simpa [Value.components] using ⟨text _, null⟩⟩
  have row {left right : Value} (first : left.BoundTo nodeCatalog)
      (second : right.BoundTo nodeCatalog) : (Value.row [left, right]).BoundTo nodeCatalog :=
    Value.throughout_iff.mpr ⟨trivial, by simpa [Value.components] using ⟨first, second⟩⟩
  exact row (text _) (row (text _) record)

private theorem resolve_node : nodeCatalog.resolve "Node" = .ok nodeSchema := by
  have found : nodeCatalog.find? "Node" = some nodeSchema := rfl
  have references : nodeSchema.references = ["Node"] := rfl
  exact Catalog.resolve_of_closed found (by simp [references])

private theorem reached_nodeTarget : CompactTarget.Reached nodeCatalog nodeSchema nodeTarget := by
  have made : (CompactTarget.withSchema nodeCatalog nodeSchema).injector (some "next")
      (.custom ⟨"Node", .compact⟩) = .ok nextInjector := by
    have checked : CompactTarget.checkField nodeCatalog (.composite "next" "Node")
        (.custom ⟨"Node", .compact⟩) = .ok () := by
      simp [CompactTarget.checkField, SchemaField.composite, FieldKind.isColumnKind, resolve_node,
        discard, Functor.discard, Functor.mapConst, Except.map]
    have found : nodeSchema.field? "next" = some (.composite "next" "Node", 1) := rfl
    simp only [CompactTarget.injector, CompactTarget.schema, CompactTarget.withSchema,
      RecordBuilder.new, found, checked]
    rfl
  exact .write (.start .fresh) .fresh made boundTo_nodeRow

theorem wellTyped_nodes : nodeRow.BoundTo nodeCatalog ∧
    (∃ record, Record.ofValue nodeCatalog nodeSchema nodeRow = .ok record ∧
      record.WellTyped nodeCatalog) ∧
    CompactTarget.Reached nodeCatalog nodeSchema nodeTarget ∧
    ∃ values, nodeTarget.conclude.1 = .ok (.record nodeSchema values) ∧
      Record.WellTyped nodeCatalog ⟨nodeSchema, values⟩ := by
  have made := Record.wellTyped_of_made nodeCatalog
  refine ⟨boundTo_nodeRow, ⟨_, rfl, ?_⟩, reached_nodeTarget, ?_⟩
  · exact (made.1 nodeSchema nodeRow _ boundTo_nodeRow rfl).1
  · obtain ⟨values, same, typed, _⟩ := made.2 nodeSchema nodeTarget _ _ reached_nodeTarget rfl
    exact ⟨values, congrArg Except.ok same, typed⟩

end Nodes

end RowProjection
