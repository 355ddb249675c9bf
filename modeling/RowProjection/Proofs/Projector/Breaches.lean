import RowProjection.Proofs.Projector.Failures
import RowProjection.Proofs.Projector.Restart
import RowProjection.Proofs.Record.Building

/-! Breaches of contract. A projector starts both targets before it writes, gives each of them its
own injectors only, and concludes what it has started, so that no row, wherever the rows before it
broke off, comes to a breach by the calls of the projector. What is left is the conversion of a
moment whose local date is outside the calendar. -/

namespace RowProjection

/-- A moment has a local date and time. -/
def Value.IsLocal : Value → Prop
  | timestampTz moment => moment.local?.isSome
  | _ => True

/-- All moments of a row, however deep, have a local date and time. -/
def Row.IsLocal (row : Row) : Prop :=
  ∀ value ∈ row.values, value.Throughout Value.IsLocal

/-- All registered converters follow the schema of a declared type. -/
def Converters.FollowSchemas (converters : Converters) : Prop :=
  ∀ name converter, converters.find? name = some converter →
    ∃ typeName, converter = .ofType typeName

/-- A failure that is no breach unless a moment in the value has no local date and time. -/
def Value.SparedBy (value : Value) (failure : Failure) : Prop :=
  value.Throughout IsLocal → ∀ breach, failure ≠ .breach breach

variable {catalog : Catalog} {value : Value} {failure : Failure}

theorem Row.IsLocal.get {row : Row} (all : row.IsLocal) (place : Nat) :
    (row.get place).Throughout Value.IsLocal := by
  by_cases below : place < row.values.length
  · have here : row.get place = row.values[place] := by
      simp [Row.get, Value.nth, List.getD, below]
    rw [here]
    exact all _ (List.getElem_mem below)
  · have absent : row.get place = .null := by
      simp [Row.get, Value.nth, List.getD, Nat.le_of_not_lt below]
    rw [absent]
    exact (Value.throughout_iff_self rfl).mpr trivial

theorem Value.sparedBy_error (value : Value) (error : Error) : value.SparedBy (.error error) :=
  fun _ _ same => Failure.noConfusion same

theorem Failure.OfConversion.sparedBy {meets : SchemaField → Prop}
    (fails : OfConversion meets value failure) : value.SparedBy failure := by
  cases fails with
  | noForm source target => exact value.sparedBy_error _
  | typeless => exact value.sparedBy_error _
  | outOfRange occurs unreached =>
    intro all
    have reached : Option.isSome (Calendar.OffsetTimestamp.local? _) := all _ occurs
    rw [Calendar.OffsetTimestamp.local?, unreached] at reached
    cases reached

theorem Value.sparedBy_of_convertTo {type : DataType}
    (failed : value.convertTo type = .error failure) : value.SparedBy failure := by
  have fails : failure.OfConversion (fun _ => False) value := failure_of_convertTo failed
  exact fails.sparedBy

/-- Whatever the catalog declares, conversions come to no breach of their own. -/
theorem covers_sparedBy (catalog : Catalog) : Covers catalog (fun _ => True) Value.SparedBy where
  noForm value _ _ := value.sparedBy_error _
  of_part member inner all := inner (all.part member)
  of_field := by
    intro owner schema field value failure nested _ _ deeper failed
    unfold convertField at failed
    split at failed
    · cases failed
    · split at failed
      · split at failed
        · exact deeper _ _ trivial failed
        · cases failed
          exact value.sparedBy_error _
      · split at failed
        · exact Value.sparedBy_of_convertTo failed
        · cases failed
          exact value.sparedBy_error _

/-- The slots that a conversion to a record fills are all within the schema. -/
theorem Record.sparedBy_of_built {schema : Schema}
    (failed : Record.built catalog schema value = .error failure) : value.SparedBy failure := by
  rw [← ofValue_eq_built] at failed
  exact failsAmong_converting (covers_sparedBy catalog) value schema failure trivial
    (Except.map_eq_error_iff.mpr failed)

theorem Value.sparedBy_of_toObjectOf {typeName : String}
    (failed : value.toObjectOf catalog typeName = .error failure) : value.SparedBy failure := by
  rw [toObjectOf] at failed
  split at failed
  · exact failsAmong_toObject (covers_sparedBy catalog) value _ failure trivial failed
  · cases failed
    exact value.sparedBy_error _

theorem sparedBy_of_conversion {context : Context} {descriptor : TargetDescriptor}
    {target : AnyTarget} {path : Option String} {type : DataType} {injector : Injector}
    (followed : context.converters.FollowSchemas)
    (created : descriptor.create context = .ok target)
    (made : Target.injector target path type = .ok injector)
    (failed : target.conversion injector value = .error failure) : value.SparedBy failure := by
  cases descriptor with
  | primitive =>
    cases created
    cases failed
  | json =>
    cases created
    obtain ⟨name, form, _, _, rfl⟩ := JsonTarget.injector_eq_ok made
    exact Value.sparedBy_of_convertTo (JsonForm.token_eq_error (Except.map_eq_error_iff.mp failed))
  | compact root =>
    obtain ⟨schema, resolved, rfl⟩ := TargetDescriptor.create_compact_eq_ok created
    obtain ⟨name, field, index, _, found, rfl⟩ := CompactTarget.injector_eq_ok made
    have failed : value.storedIn context.catalog field.kind field.reference = .error failure :=
      Except.map_eq_error_iff.mp failed
    have covers := covers_sparedBy context.catalog
    have member := List.mem_of_getElem? (Schema.getElem?_of_field? found)
    exact covers.of_field trivial member (Record.failsAmong_converting covers value) failed
  | object =>
    cases created
    obtain ⟨custom, declared, rfl⟩ := ObjectTarget.injector_eq_ok made
    have failed : ObjectTarget.convert context.catalog context.converters custom.name value =
      .error failure := Except.map_eq_error_iff.mp failed
    rw [ObjectTarget.convert] at failed
    cases registered : context.converters.find? custom.name with
    | none =>
      rw [registered] at failed
      exact Value.sparedBy_of_toObjectOf failed
    | some converter =>
      obtain ⟨typeName, rfl⟩ := followed _ _ registered
      rw [registered] at failed
      exact Value.sparedBy_of_toObjectOf failed

namespace Supplier

variable {supplier : Supplier} {context : Context}

/-- One row of a fresh projector. -/
theorem project_spared {projector : Projector AnyTarget AnyTarget} {row : Row}
    (built : supplier.get context = .ok projector)
    (followed : context.converters.FollowSchemas) (isLocal : row.IsLocal)
    (failed : (projector.project row).1 = .error failure) :
    ∀ breach, failure ≠ .breach breach := by
  rcases exists_conversion_of_project built failed with ⟨_, side, rfl⟩ |
    ⟨column, _, target, injector, place, created, made, failed⟩
  · exact fun _ same => Failure.noConfusion same
  · exact sparedBy_of_conversion followed created made failed (isLocal.get place)

/-- A projector comes to no breach, in whatever rows it projects one after another, and whichever
of them fail, as long as their moments have local dates and times. No more does a builder that
fills the slots of a record with what stands in such a row, of whatever schema. -/
theorem projectAll_without_breach (supplier : Supplier) (context : Context)
    (projector : Projector AnyTarget AnyTarget) (rows : List Row)
    (built : supplier.get context = .ok projector)
    (followed : context.converters.FollowSchemas) (isLocal : ∀ row ∈ rows, row.IsLocal) :
    (∀ result ∈ projector.projectAll rows, ∀ breach, result ≠ .error (.breach breach)) ∧
    ∀ row ∈ rows, ∀ value ∈ row.values, ∀ part : Value, part.OccursIn value →
      ∀ schema breach, Record.built context.catalog schema part ≠ .error (.breach breach) := by
  constructor
  · intro result among breach same
    have answers := projector.projectAll_after [] rows
    rw [show projector.after [] = projector from rfl] at answers
    rw [answers] at among
    obtain ⟨row, member, rfl⟩ := List.mem_map.mp among
    exact project_spared built followed (isLocal row member) same breach rfl
  · intro row member value present part occurs schema breach failed
    have inside := (isLocal row member value present).within occurs
    exact Record.sparedBy_of_built failed inside breach rfl

section Visits

def visitSchema : Schema :=
  .ofFields "Visit" [.scalar "day" .date, .scalar "page" .string]

/-- Numbered visits, which are made into objects by a registered converter. -/
def visitSupplier : Supplier where
  columns :=
    [⟨⟨"__key", .int, false⟩, ⟨.key, none⟩⟩,
     ⟨⟨"this", .custom ⟨"Visit", .native⟩, false⟩, ⟨.value, none⟩⟩]
  key := .primitive
  value := .object
  failOnNulls := true

def visitContext : Context where
  catalog := Catalog.empty.insert visitSchema
  converters := Table.empty.insert "Visit" (.ofType "Visit")
  options := {}

/-- A row that breaks off at its null key, one at its second column, and a good one. -/
def visitRows : List Row :=
  [⟨[.null, .row []]⟩, ⟨[.int 1, .row [.boolean true]]⟩, ⟨[.int 2, .row [.null, .varchar "a"]]⟩]

theorem visits_without_breach : ∃ projector, visitSupplier.get visitContext = .ok projector ∧
    projector.projectAll visitRows =
      [.error (.error (.nullNotAllowed .key)),
       .error (.error (.conversion "BOOLEAN" "DATE")),
       .ok ⟨.int 2, .object "Visit" [("day", .null), ("page", .varchar "a")]⟩] ∧
    ∀ result ∈ projector.projectAll visitRows, ∀ breach, result ≠ .error (.breach breach) := by
  refine ⟨_, rfl, rfl,
    (projectAll_without_breach visitSupplier visitContext _ visitRows rfl ?_ ?_).1⟩
  · intro name converter registered
    simp only [visitContext, Table.find?_insert] at registered
    split at registered
    · exact ⟨"Visit", (Option.some.inj registered).symm⟩
    · cases registered
  · have inner (values : List Value) : (Value.row values).Throughout Value.IsLocal ↔
        ∀ part ∈ values, part.Throughout Value.IsLocal :=
      Value.throughout_iff.trans (and_iff_right trivial)
    have scalar {value : Value} (single : value.components = []) (own : value.IsLocal) :
        value.Throughout Value.IsLocal :=
      (Value.throughout_iff_self single).mpr own
    simp only [visitRows, Row.IsLocal, List.forall_mem_cons, inner, List.not_mem_nil,
      false_implies, implies_true, and_true]
    exact ⟨scalar rfl trivial, ⟨scalar rfl trivial, scalar rfl trivial⟩, scalar rfl trivial,
      scalar rfl trivial, scalar rfl trivial⟩

end Visits

end Supplier

end RowProjection
