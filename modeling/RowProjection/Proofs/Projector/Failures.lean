import RowProjection.Proofs.Projector.Agreement
import RowProjection.Proofs.Record.Failures
import RowProjection.Proofs.Target.Progress

/-! What a row fails for once its projector is built. Besides nulls that are not allowed, it is the
conversion of a column: the value has no form in the type, or a field without a type is met in a
schema that the type of the column leads to. These fields are not looked at before. -/

namespace RowProjection

/-- The type that the values of a column are converted to on a side of a description: the one that
the field of the column refers to, or the native type of the column. -/
inductive TargetDescriptor.Opens (context : Context) (column : Column) :
    TargetDescriptor → String → Prop where
  | compact {root typeName : String} {schema : Schema} {field : SchemaField} {index : Nat}
      (found : context.catalog.find? root = some schema)
      (slot : column.slot? schema = some (field, index)) (composite : field.kind = .compact)
      (reference : field.reference = some typeName) : Opens context column (compact root) typeName
  | object {custom : CustomType} (declared : column.type.custom? = some custom) :
      Opens context column object custom.name

/-- The fields that a column can meet on a side of a description: those of the schemas that its
type leads to. -/
def TargetDescriptor.Meets (context : Context) (column : Column) (descriptor : TargetDescriptor)
    (field : SchemaField) : Prop :=
  ∃ typeName schema, descriptor.Opens context column typeName ∧
    context.catalog.Reaches typeName schema ∧ field ∈ schema.fields

section Rows

variable {origins : Side → AnyTarget} {sides : Sides AnyTarget AnyTarget} {column : Column}

/-- What the side of a column does with a value before it stores the result. -/
def Column.attempt (origins : Side → AnyTarget) (column : Column) (value : Value) :
    Except Failure Unit :=
  match Target.injector (origins column.path.side) column.path.field column.type with
  | .ok injector => (origins column.path.side).conversion injector value
  | .error error => .error (.error error)

/-- The columns from an ordinal on, up to the first failure. -/
def Column.attemptAll (origins : Side → AnyTarget) (row : Row) :
    Nat → List Column → Except Failure Unit
  | _, [] => .ok ()
  | ordinal, column :: rest => do
    column.attempt origins (row.get ordinal)
    attemptAll origins row (ordinal + 1) rest

theorem Column.attempt_own {side : Side} {injector : Injector} (own : column.path.side = side)
    (made : Target.injector (origins side) column.path.field column.type = .ok injector)
    (value : Value) : column.attempt origins value = (origins side).conversion injector value := by
  subst own
  rw [attempt, made]

/-- Both targets of a row are in progress. -/
structure Sides.InProgress (origins : Side → AnyTarget) (sides : Sides AnyTarget AnyTarget) :
    Prop where
  key : AnyTarget.InProgress (origins .key) sides.key
  value : AnyTarget.InProgress (origins .value) sides.value

theorem writeColumn_inProgress {key value : Option Injector}
    (keyMade : resolveColumn (origins .key) .key column = .ok key)
    (valueMade : resolveColumn (origins .value) .value column = .ok value)
    (progress : sides.InProgress origins) (content : Value) :
    (sides.writeColumn key value content).1 = column.attempt origins content ∧
      (sides.writeColumn key value content).2.InProgress origins := by
  cases own : column.path.side with
  | key =>
    have other : column.path.side ≠ .value := by simp [own]
    obtain ⟨compiled, made, rfl⟩ := resolveColumn_own own keyMade
    cases resolveColumn_other other valueMade
    obtain ⟨same, next⟩ := progress.key.write made content
    rw [Column.attempt_own own made, ← same, Sides.writeColumn_key]
    exact ⟨rfl, next, progress.value⟩
  | value =>
    have other : column.path.side ≠ .key := by simp [own]
    obtain ⟨compiled, made, rfl⟩ := resolveColumn_own own valueMade
    cases resolveColumn_other other keyMade
    obtain ⟨same, next⟩ := progress.value.write made content
    rw [Column.attempt_own own made, ← same, Sides.writeColumn_value]
    exact ⟨rfl, progress.key, next⟩

theorem writeColumns_inProgress (row : Row) {columns : List Column}
    {keys values : List (Option Injector)}
    (keysMade : resolveInjectors (origins .key) .key columns = .ok keys)
    (valuesMade : resolveInjectors (origins .value) .value columns = .ok values)
    (progress : sides.InProgress origins) (ordinal : Nat) :
    (Sides.writeColumns row ordinal (keys.zip values) sides).1 =
        Column.attemptAll origins row ordinal columns ∧
      (Sides.writeColumns row ordinal (keys.zip values) sides).2.InProgress origins := by
  induction columns generalizing keys values sides ordinal with
  | nil =>
    cases keysMade
    cases valuesMade
    exact ⟨rfl, progress⟩
  | cons column columns ih =>
    obtain ⟨key, otherKeys, keyMade, otherKeysMade, rfl⟩ := resolveInjectors_cons keysMade
    obtain ⟨value, otherValues, valueMade, otherValuesMade, rfl⟩ := resolveInjectors_cons valuesMade
    obtain ⟨same, next⟩ := writeColumn_inProgress keyMade valueMade progress (row.get ordinal)
    rw [List.zip_cons_cons, Column.attemptAll, ← same]
    simp only [Sides.writeColumns]
    generalize sides.writeColumn key value (row.get ordinal) = written at next
    obtain ⟨result, targets⟩ := written
    cases result with
    | error failure => exact ⟨rfl, next⟩
    | ok => exact ih otherKeysMade otherValuesMade next (ordinal + 1)

/-- Nothing but a null fails at the end of a row. -/
theorem conclude_inProgress {failOnNulls : Bool} {failure : Failure}
    (progress : sides.InProgress origins)
    (failed : (sides.conclude failOnNulls).1 = .error failure) :
    failOnNulls = true ∧ ∃ side, failure = .error (.nullNotAllowed side) := by
  obtain ⟨key, keyAfter, keyConcluded⟩ := progress.key.conclude
  obtain ⟨value, valueAfter, valueConcluded⟩ := progress.value.conclude
  have refused {side : Side} {content : Value}
      (failed : Sides.checkNull failOnNulls side content = .error failure) :
      failOnNulls = true ∧ ∃ side, failure = .error (.nullNotAllowed side) := by
    rw [Sides.checkNull] at failed
    split at failed
    · next null =>
      rw [Bool.and_eq_true] at null
      cases failed
      exact ⟨null.1, side, rfl⟩
    · cases failed
  simp only [Sides.conclude, keyConcluded, valueConcluded] at failed
  split at failed
  · next _ keyFailed =>
    cases failed
    exact refused (Except.map_eq_error_iff.mp keyFailed)
  · rcases Except.bind_eq_error_iff.mp failed with absent | ⟨_, same, failed⟩
    · cases absent
    · cases same
      rcases Except.bind_eq_error_iff.mp failed with null | ⟨_, _, failed⟩
      · exact refused null
      · cases failed

theorem project_inProgress {columns : List Column} {keys values : List (Option Injector)}
    (keysMade : resolveInjectors (origins .key) .key columns = .ok keys)
    (valuesMade : resolveInjectors (origins .value) .value columns = .ok values)
    (failOnNulls : Bool) (row : Row) {failure : Failure} :
    (Column.attemptAll origins row 0 columns = .error failure →
      (Projector.project ⟨⟨origins .key, origins .value⟩, keys, values, failOnNulls⟩ row).1 =
        .error failure) ∧
    ((Projector.project ⟨⟨origins .key, origins .value⟩, keys, values, failOnNulls⟩ row).1 =
        .error failure →
      Column.attemptAll origins row 0 columns = .error failure ∨
        failOnNulls = true ∧ ∃ side, failure = .error (.nullNotAllowed side)) := by
  have started : (Sides.start ⟨origins .key, origins .value⟩).InProgress origins :=
    ⟨AnyTarget.inProgress_start _, AnyTarget.inProgress_start _⟩
  obtain ⟨same, next⟩ := writeColumns_inProgress row keysMade valuesMade started 0
  rw [← same]
  simp only [Projector.project]
  generalize (Sides.start ⟨origins .key, origins .value⟩).writeColumns row 0 (keys.zip values) =
    written at next
  obtain ⟨result, targets⟩ := written
  cases result with
  | error other =>
    constructor
    · intro failed
      cases failed
      rfl
    · intro failed
      cases failed
      exact .inl rfl
  | ok =>
    constructor
    · intro failed
      cases failed
    · intro failed
      exact .inr (conclude_inProgress next failed)

/-- A failure of the columns is one of a single column. -/
theorem exists_attempt_of_attemptAll {columns : List Column} {row : Row} {ordinal : Nat}
    {failure : Failure} (failed : Column.attemptAll origins row ordinal columns = .error failure) :
    ∃ column ∈ columns, ∃ place, column.attempt origins (row.get place) = .error failure := by
  induction columns generalizing ordinal with
  | nil => cases failed
  | cons column columns ih =>
    rcases Except.bind_eq_error_iff.mp failed with head | ⟨_, _, failed⟩
    · exact ⟨column, List.mem_cons_self .., ordinal, head⟩
    · obtain ⟨other, member, place, fails⟩ := ih failed
      exact ⟨other, List.mem_cons_of_mem _ member, place, fails⟩

/-- Columns that take null are passed over by a row that has nulls for them. -/
theorem attemptAll_after_nulls {before after : List Column} {row : Row} {ordinal : Nat}
    {failure : Failure} (nulls : ∀ column ∈ before, column.attempt origins .null = .ok ())
    (absent : ∀ place < ordinal + before.length, row.get place = .null)
    (failed : column.attempt origins (row.get (ordinal + before.length)) = .error failure) :
    Column.attemptAll origins row ordinal (before ++ column :: after) = .error failure := by
  induction before generalizing ordinal with
  | nil => exact Except.bind_eq_error_iff.mpr (.inl failed)
  | cons head before ih =>
    rw [List.forall_mem_cons] at nulls
    rw [List.length_cons, ← Nat.succ_add_eq_add_succ] at absent failed
    refine Except.bind_eq_error_iff.mpr (.inr ⟨(), ?_, ih nulls.2 absent failed⟩)
    rw [absent ordinal (by omega)]
    exact nulls.1

end Rows

section Columns

variable {context : Context} {descriptor : TargetDescriptor} {target : AnyTarget}
  {injector : Injector} {column : Column} {value : Value}

/-- Only the forms of a type fail, with the conversion to it. -/
theorem JsonForm.token_eq_error {form : JsonForm} {failure : Failure}
    (failed : form.token value = .error failure) :
    value.convertTo form.dataType = .error failure := by
  unfold token at failed
  split at failed
  · cases failed
  · split at failed
    · cases failed
    · cases failed
    · exact Except.map_eq_error_iff.mp failed

/-- Only fields whose conversion has a type are written, and composites only where all types that
they can reach are declared. -/
theorem CompactTarget.injector_checked {target : CompactTarget} {path : Option String}
    {type : DataType} (made : target.injector path type = .ok injector) :
    ∃ name field index, path = some name ∧ target.schema.field? name = some (field, index) ∧
      injector = ⟨some name, .compact index field.kind field.reference⟩ ∧ ¬ field.IsTypeless ∧
      ∀ typeName, field.kind = .compact → field.reference = some typeName →
        ∃ schema, target.catalog.resolve typeName = .ok schema := by
  obtain ⟨name, field, index, rfl, found, rfl⟩ := injector_eq_ok made
  refine ⟨name, field, index, rfl, found, rfl, ?_⟩
  simp only [CompactTarget.injector, found] at made
  obtain ⟨_, checked, _⟩ := Except.map_eq_ok_iff.mp made
  rw [checkField] at checked
  split at checked
  · cases checked
  · split at checked
    · cases checked
    · next columnKind =>
      split at checked
      · next composite =>
        split at checked
        · cases checked
        · next typeName reference =>
          obtain ⟨schema, resolved, _⟩ := Except.map_eq_ok_iff.mp checked
          refine ⟨?_, fun other _ same => ?_⟩
          · rintro (array | ⟨_, none⟩)
            · simp [composite] at array
            · simp [reference] at none
          · cases reference.symm.trans same
            exact ⟨schema, resolved⟩
      · next scalar =>
        refine ⟨?_, fun _ composite => absurd composite scalar⟩
        rintro (array | ⟨composite, _⟩)
        · simp only [List.mem_cons, List.not_mem_nil, or_false] at array
          rcases array with same | same | same <;> simp [same, FieldKind.isColumnKind] at columnKind
        · exact scalar composite

/-- Without a registered converter, all types that an object can reach are declared. -/
theorem ObjectTarget.injector_resolved {target : ObjectTarget} {path : Option String}
    {type : DataType} (unregistered : target.converters = .empty)
    (made : target.injector path type = .ok injector) :
    ∃ custom schema, type.custom? = some custom ∧ injector = ⟨none, .object custom⟩ ∧
      target.catalog.resolve custom.name = .ok schema := by
  obtain ⟨custom, declared, rfl⟩ := injector_eq_ok made
  simp only [ObjectTarget.injector, declared, unregistered, Table.contains,
    Table.find?_empty] at made
  split at made
  · cases made
  · split at made
    · cases made
    · obtain ⟨schema, resolved, _⟩ := Except.map_eq_ok_iff.mp made
      exact ⟨custom, schema, declared, rfl, resolved⟩

theorem ObjectTarget.convert_unregistered {typeName : String} {schema : Schema}
    (unregistered : context.converters = .empty)
    (found : context.catalog.find? typeName = some schema) (value : Value) :
    convert context.catalog context.converters typeName value =
      value.toObject context.catalog schema := by
  rw [convert, unregistered, Table.find?_empty, Option.getD_none, Converter.ofType,
    Value.toObjectOf, found]

/-- A conversion of a column fails for its value, or at a field that the column meets. -/
theorem failure_of_conversion {failure : Failure} (unregistered : context.converters = .empty)
    (created : descriptor.create context = .ok target)
    (made : Target.injector target column.path.field column.type = .ok injector)
    (failed : target.conversion injector value = .error failure) :
    failure.OfConversion (descriptor.Meets context column) value := by
  cases descriptor with
  | primitive =>
    cases created
    cases failed
  | json =>
    cases created
    obtain ⟨name, form, _, _, rfl⟩ := JsonTarget.injector_eq_ok made
    exact Value.failure_of_convertTo (JsonForm.token_eq_error (Except.map_eq_error_iff.mp failed))
  | compact root =>
    obtain ⟨schema, resolved, rfl⟩ := TargetDescriptor.create_compact_eq_ok created
    obtain ⟨name, field, index, path, found, rfl, typed, references⟩ :=
      CompactTarget.injector_checked made
    have slot : column.slot? schema = some (field, index) := by
      rw [Column.slot?, path]
      exact found
    have failed : value.storedIn context.catalog field.kind field.reference = .error failure :=
      Except.map_eq_error_iff.mp failed
    refine failure_of_convertField (fun typeless => absurd typeless typed) ?_ failed
    intro typeName composite reference
    obtain ⟨inner, resolvedInner⟩ := references typeName composite reference
    have innerFound := Catalog.find?_of_resolve resolvedInner
    refine ⟨inner, innerFound, fun other fails => ?_⟩
    have covers := covers_ofConversion (closedUnder_reaches resolvedInner)
    refine (Record.failsAmong_converting covers value inner other (.declared innerFound) fails).imp
      ?_
    rintro met ⟨reached, leads, member⟩
    exact ⟨typeName, reached, .compact (Catalog.find?_of_resolve resolved) slot composite reference,
      leads, member⟩
  | object =>
    cases created
    obtain ⟨custom, schema, declared, rfl, resolved⟩ :=
      ObjectTarget.injector_resolved unregistered made
    have found : context.catalog.find? custom.name = some schema :=
      Catalog.find?_of_resolve resolved
    have failed : ObjectTarget.convert context.catalog context.converters custom.name value =
      .error failure := Except.map_eq_error_iff.mp failed
    rw [ObjectTarget.convert_unregistered unregistered found] at failed
    have covers := covers_ofConversion (closedUnder_reaches resolved)
    refine (Value.failsAmong_toObject covers value schema failure (.declared found) failed).imp ?_
    rintro met ⟨reached, leads, member⟩
    exact ⟨custom.name, reached, .object declared, leads, member⟩

/-- Every target takes null. -/
theorem conversion_null (unregistered : context.converters = .empty)
    (created : descriptor.create context = .ok target)
    (made : Target.injector target column.path.field column.type = .ok injector) :
    target.conversion injector .null = .ok () := by
  cases descriptor with
  | primitive =>
    cases created
    rfl
  | json =>
    cases created
    obtain ⟨name, form, _, _, rfl⟩ := JsonTarget.injector_eq_ok made
    rfl
  | compact root =>
    obtain ⟨schema, resolved, rfl⟩ := TargetDescriptor.create_compact_eq_ok created
    obtain ⟨name, field, index, _, _, rfl⟩ := CompactTarget.injector_eq_ok made
    rfl
  | object =>
    cases created
    obtain ⟨custom, schema, _, rfl, resolved⟩ := ObjectTarget.injector_resolved unregistered made
    have found : context.catalog.find? custom.name = some schema :=
      Catalog.find?_of_resolve resolved
    refine Except.map_eq_ok_iff.mpr ⟨.null, ?_, rfl⟩
    exact ObjectTarget.convert_unregistered unregistered found .null

/-- Every field that a column can meet is met by some value. -/
theorem exists_conversion_error {field : SchemaField} (unregistered : context.converters = .empty)
    (created : descriptor.create context = .ok target)
    (made : Target.injector target column.path.field column.type = .ok injector)
    (met : descriptor.Meets context column field) (typeless : field.IsTypeless) :
    ∃ value, target.conversion injector value = .error (.error (.unsupportedKind field.kind)) := by
  obtain ⟨typeName, schema, opens, reached, member⟩ := met
  obtain ⟨value, present, fails⟩ := exists_unsupported reached member typeless
  refine ⟨value, ?_⟩
  cases opens with
  | @compact root _ outer through index found slot composite reference =>
    obtain ⟨rootSchema, resolved, rfl⟩ := TargetDescriptor.create_compact_eq_ok created
    cases found.symm.trans (Catalog.find?_of_resolve resolved)
    obtain ⟨name, other, place, path, otherFound, rfl, _, references⟩ :=
      CompactTarget.injector_checked made
    rw [Column.slot?, path] at slot
    cases slot.symm.trans otherFound
    obtain ⟨inner, resolvedInner⟩ := references typeName composite reference
    have innerFound : context.catalog.find? typeName = some inner :=
      Catalog.find?_of_resolve resolvedInner
    refine Except.map_eq_error_iff.mpr ?_
    exact (convertField_nested present composite reference innerFound).trans
      (Except.map_eq_error_iff.mpr (fails inner innerFound).1)
  | @object custom declared =>
    cases created
    obtain ⟨other, inner, same, rfl, resolved⟩ := ObjectTarget.injector_resolved unregistered made
    cases declared.symm.trans same
    have found : context.catalog.find? custom.name = some inner :=
      Catalog.find?_of_resolve resolved
    refine Except.map_eq_error_iff.mpr ?_
    exact (ObjectTarget.convert_unregistered unregistered found value).trans (fails inner found).2

end Columns

theorem exists_injector_of_resolve {τ : Type} [Target τ] {target : τ} {side : Side}
    {columns : List Column} {injectors : List (Option Injector)} {column : Column}
    (made : resolveInjectors target side columns = .ok injectors) (member : column ∈ columns)
    (own : column.path.side = side) :
    ∃ injector, Target.injector target column.path.field column.type = .ok injector := by
  induction columns generalizing injectors with
  | nil => cases member
  | cons head columns ih =>
    obtain ⟨first, others, firstMade, othersMade, _⟩ := resolveInjectors_cons made
    rcases List.mem_cons.mp member with rfl | member
    · obtain ⟨injector, compiled, _⟩ := resolveColumn_own own firstMade
      exact ⟨injector, compiled⟩
    · exact ih othersMade member

namespace Supplier

variable {supplier : Supplier} {context : Context}

/-- The description of a side. -/
def descriptor (supplier : Supplier) : Side → TargetDescriptor :=
  Side.choose supplier.key supplier.value

/-- The fields that some column meets on its side. -/
def Meets (supplier : Supplier) (context : Context) (field : SchemaField) : Prop :=
  ∃ column ∈ supplier.columns, (supplier.descriptor column.path.side).Meets context column field

theorem get_eq_ok {projector : Projector AnyTarget AnyTarget}
    (built : supplier.get context = .ok projector) :
    ∃ (origins : Side → AnyTarget) (keys values : List (Option Injector)),
      (∀ side, (supplier.descriptor side).create context = .ok (origins side)) ∧
      resolveInjectors (origins .key) .key supplier.columns = .ok keys ∧
      resolveInjectors (origins .value) .value supplier.columns = .ok values ∧
      projector = ⟨⟨origins .key, origins .value⟩, keys, values, supplier.failOnNulls⟩ := by
  obtain ⟨key, value, keys, values, keyCreated, valueCreated, keysMade, valuesMade, rfl⟩ :=
    get_cases built
  refine ⟨Side.choose key value, keys, values, ?_, keysMade, valuesMade, rfl⟩
  rintro (_ | _)
  · exact keyCreated
  · exact valueCreated

theorem exists_injector_of_built {origins : Side → AnyTarget} {keys values : List (Option Injector)}
    (keysMade : resolveInjectors (origins .key) .key supplier.columns = .ok keys)
    (valuesMade : resolveInjectors (origins .value) .value supplier.columns = .ok values)
    {column : Column} (member : column ∈ supplier.columns) :
    ∃ injector, Target.injector (origins column.path.side) column.path.field column.type =
      .ok injector := by
  cases own : column.path.side with
  | key => exact exists_injector_of_resolve keysMade member own
  | value => exact exists_injector_of_resolve valuesMade member own

/-- A row fails for a null that is not allowed, or for the conversion of a column. -/
theorem exists_conversion_of_project {projector : Projector AnyTarget AnyTarget} {row : Row}
    {failure : Failure} (built : supplier.get context = .ok projector)
    (failed : (projector.project row).1 = .error failure) :
    (supplier.failOnNulls = true ∧ ∃ side, failure = .error (.nullNotAllowed side)) ∨
      ∃ column ∈ supplier.columns, ∃ target injector place,
        (supplier.descriptor column.path.side).create context = .ok target ∧
        Target.injector target column.path.field column.type = .ok injector ∧
        target.conversion injector (row.get place) = .error failure := by
  obtain ⟨origins, keys, values, created, keysMade, valuesMade, rfl⟩ := get_eq_ok built
  rcases (project_inProgress keysMade valuesMade supplier.failOnNulls row).2 failed with
    attempted | null
  · obtain ⟨column, member, place, failed⟩ := exists_attempt_of_attemptAll attempted
    obtain ⟨injector, made⟩ := exists_injector_of_built keysMade valuesMade member
    rw [Column.attempt_own rfl made] at failed
    exact .inr ⟨column, member, _, injector, place, created _, made, failed⟩
  · exact .inl null

/-- A row of a projector without registered converters fails for a null that is not allowed, or for
the conversion of a value: it has no form, or a field without a type is met. Each such field that
a column can meet is met by some row, although the projector was built. -/
theorem project_failures (supplier : Supplier) (context : Context)
    (projector : Projector AnyTarget AnyTarget) (built : supplier.get context = .ok projector)
    (unregistered : context.converters = .empty) :
    (∀ row failure, (projector.project row).1 = .error failure →
      (supplier.failOnNulls = true ∧ ∃ side, failure = .error (.nullNotAllowed side)) ∨
        ∃ place, failure.OfConversion (supplier.Meets context) (row.get place)) ∧
    ∀ field, supplier.Meets context field → field.IsTypeless →
      ∃ row, (projector.project row).1 = .error (.error (.unsupportedKind field.kind)) := by
  constructor
  · intro row failure failed
    refine (exists_conversion_of_project built failed).imp_right ?_
    rintro ⟨column, member, target, injector, place, created, made, failed⟩
    have fails := failure_of_conversion unregistered created made failed
    exact ⟨place, fails.imp fun field met => ⟨column, member, met⟩⟩
  · obtain ⟨origins, keys, values, created, keysMade, valuesMade, rfl⟩ := get_eq_ok built
    rintro field ⟨column, member, met⟩ typeless
    obtain ⟨injector, made⟩ := exists_injector_of_built keysMade valuesMade member
    obtain ⟨value, failed⟩ :=
      exists_conversion_error unregistered (created column.path.side) made met typeless
    rw [← Column.attempt_own rfl made] at failed
    obtain ⟨before, after, split⟩ := List.append_of_mem member
    have nulls : ∀ other ∈ before, other.attempt origins .null = .ok () := by
      intro other among
      have owned : other ∈ supplier.columns := by
        rw [split]
        exact List.mem_append_left _ among
      obtain ⟨compiled, made⟩ := exists_injector_of_built keysMade valuesMade owned
      rw [Column.attempt_own rfl made]
      exact conversion_null unregistered (created other.path.side) made
    let row : Row := ⟨List.replicate before.length .null ++ [value]⟩
    have absent : ∀ place < 0 + before.length, row.get place = .null := by
      intro place below
      rw [Nat.zero_add] at below
      simp [row, Row.get, Value.nth, List.getD, List.getElem?_append_left, below]
    have present : row.get (0 + before.length) = value := by
      simp [row, Row.get, Value.nth, List.getD]
    have attempted : Column.attemptAll origins row 0 supplier.columns =
        .error (.error (.unsupportedKind field.kind)) := by
      rw [split]
      exact attemptAll_after_nulls nulls absent (by rw [present, failed])
    exact ⟨row, (project_inProgress keysMade valuesMade supplier.failOnNulls row).1 attempted⟩

section Branches

/-- A schema that refers to itself, with a field for an array. -/
def branchSchema : Schema :=
  .ofFields "Branch" [.composite "next" "Branch", .scalar "tags" .arrayOfString]

/-- The array is not written, but for the branch that is. -/
def branchSupplier : Supplier where
  columns :=
    [⟨⟨"__key", .int, false⟩, ⟨.key, none⟩⟩,
     ⟨⟨"next", .custom ⟨"Branch", .compact⟩, false⟩, ⟨.value, some "next"⟩⟩]
  key := .primitive
  value := .compact "Branch"
  failOnNulls := false

def branchContext : Context :=
  .ofCatalog (Catalog.empty.insert branchSchema)

def branchProjector : Projector AnyTarget AnyTarget where
  targets := ⟨.primitive .new, .compact (.withSchema branchContext.catalog branchSchema)⟩
  keyInjectors := [some ⟨none, .identity⟩, none]
  valueInjectors := [none, some ⟨some "next", .compact 0 .compact (some "Branch")⟩]
  failOnNulls := false

private theorem get_branchSupplier : branchSupplier.get branchContext = .ok branchProjector := by
  have found : branchContext.catalog.find? "Branch" = some branchSchema := rfl
  have references : branchSchema.references = ["Branch"] := rfl
  have resolved := Catalog.resolve_of_closed found (by simp [references])
  have created : branchSupplier.value.create branchContext =
      .ok (.compact (.withSchema branchContext.catalog branchSchema)) := by
    change (CompactTarget.new branchContext.catalog "Branch").map AnyTarget.compact = _
    rw [CompactTarget.new, resolved]
    rfl
  have checked : CompactTarget.checkField branchContext.catalog (.composite "next" "Branch")
      (.custom ⟨"Branch", .compact⟩) = .ok () := by
    simp [CompactTarget.checkField, SchemaField.composite, FieldKind.isColumnKind, resolved,
      discard, Functor.discard, Functor.mapConst, Except.map]
  have made : Target.injector (AnyTarget.compact (.withSchema branchContext.catalog branchSchema))
      (some "next") (.custom ⟨"Branch", .compact⟩) =
        .ok ⟨some "next", .compact 0 .compact (some "Branch")⟩ := by
    have slot : branchSchema.field? "next" = some (.composite "next" "Branch", 0) := rfl
    change (CompactTarget.withSchema branchContext.catalog branchSchema).injector (some "next")
      (.custom ⟨"Branch", .compact⟩) = _
    simp only [CompactTarget.injector, CompactTarget.schema, CompactTarget.withSchema,
      RecordBuilder.new, slot, checked]
    rfl
  have values : resolveInjectors
      (AnyTarget.compact (.withSchema branchContext.catalog branchSchema)) .value
        branchSupplier.columns = .ok branchProjector.valueInjectors := by
    simp only [resolveInjectors, resolveColumn, branchSupplier, Column.type, made, reduceCtorEq,
      if_true, if_false]
    rfl
  rw [get, created]
  change (resolveInjectors (AnyTarget.compact (.withSchema branchContext.catalog branchSchema))
    .value branchSupplier.columns >>= _) = _
  rw [values]
  rfl

private theorem meets_tags :
    branchSupplier.Meets branchContext (.scalar "tags" .arrayOfString) :=
  ⟨_, List.mem_cons_of_mem _ (List.mem_cons_self ..), "Branch", branchSchema,
    .compact rfl rfl rfl rfl, .declared rfl, List.mem_cons_of_mem _ (List.mem_cons_self ..)⟩

theorem project_branches : branchSupplier.get branchContext = .ok branchProjector ∧
    ∃ row, (branchProjector.project row).1 =
      .error (.error (.unsupportedKind .arrayOfString)) := by
  have failures := project_failures branchSupplier branchContext branchProjector get_branchSupplier
    rfl
  exact ⟨get_branchSupplier, failures.2 _ meets_tags (.inl (List.mem_cons_self ..))⟩

/-- A branch in a branch fails for its tags, which nothing looked at before. -/
theorem tags_met_in_row : ∃ projector, branchSupplier.get branchContext = .ok projector ∧
    (projector.project ⟨[.int 1, .row [.null, .varchar "a"]]⟩).1 =
      .error (.error (.unsupportedKind .arrayOfString)) :=
  ⟨branchProjector, get_branchSupplier, rfl⟩

end Branches

end Supplier

end RowProjection
