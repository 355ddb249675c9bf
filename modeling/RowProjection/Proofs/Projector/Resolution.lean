import RowProjection.Projector.Basic
import RowProjection.Proofs.Schema.BreadthFirst
import RowProjection.Proofs.Schema.Fields
import RowProjection.Target.Compact

namespace RowProjection

variable {catalog : Catalog} {schema : Schema} {column : Column} {side : Side} {error : Error}

/-- The kinds of scalar fields that columns are stored in. -/
def FieldKind.columnScalars : List FieldKind :=
  [string, decimal, date, time, timestamp, timestampWithTimezone, nullableBoolean, nullableInt8,
    nullableInt16, nullableInt32, nullableInt64, nullableFloat32, nullableFloat64]

theorem FieldKind.isColumnKind_iff {kind : FieldKind} :
    kind.isColumnKind = true ↔ kind ∈ columnScalars ∨ kind = .compact := by
  cases kind <;> decide

namespace Column

/-- A column of a declared type goes into composite fields only. A composite field takes a column if
all types that its reference leads to are declared, a scalar field if its kind stores columns. -/
structure Fits (catalog : Catalog) (column : Column) (field : SchemaField) : Prop where
  composite_of_custom : column.type.custom?.isSome = true → field.kind = .compact
  stored : field.kind ∈ FieldKind.columnScalars ∨ field.kind = .compact ∧
    ∃ reference, field.reference = some reference ∧ catalog.IsClosedFrom reference

/-- The path of the column names a field of the schema that the column fits. -/
def IsWritable (catalog : Catalog) (schema : Schema) (column : Column) : Prop :=
  ∃ name field index, column.path.field = some name ∧ schema.IsFirst name field index ∧
    column.Fits catalog field

/-- Why a column does not fit a field. -/
inductive Misfits (catalog : Catalog) (column : Column) (field : SchemaField) : Error → Prop where
  | custom (custom : column.type.custom?.isSome = true) (scalar : field.kind ≠ .compact) :
      Misfits catalog column field (.conversion column.type.text field.kind.text)
  | kind (plain : column.type.custom? = none) (scalar : field.kind ≠ .compact)
      (unstored : field.kind ∉ FieldKind.columnScalars) :
      Misfits catalog column field (.unsupportedKind field.kind)
  | reference (composite : field.kind = .compact) (none : field.reference = none) :
      Misfits catalog column field (.unsupportedKind .compact)
  | undeclared {reference missing : String} (composite : field.kind = .compact)
      (refers : field.reference = some reference)
      (nearest : catalog.IsNearestMissing reference missing) :
      Misfits catalog column field (.missingType missing)

/-- Why a column cannot be written to a record of a schema. -/
inductive Offends (catalog : Catalog) (schema : Schema) (column : Column) : Error → Prop where
  | whole (top : column.path.field = none) : Offends catalog schema column (.wholeValue "COMPACT")
  | unknown {name : String} (path : column.path.field = some name)
      (missing : name ∉ schema.fields.map (·.name)) :
      Offends catalog schema column (.schemaMismatch name schema.name)
  | field {name : String} {field : SchemaField} {index : Nat} {error : Error}
      (path : column.path.field = some name) (first : schema.IsFirst name field index)
      (misfits : column.Misfits catalog field error) : Offends catalog schema column error

theorem Fits.exists_closed {field : SchemaField} (fits : column.Fits catalog field)
    (composite : field.kind = .compact) :
    ∃ reference, field.reference = some reference ∧ catalog.IsClosedFrom reference := by
  rcases fits.stored with scalar | ⟨_, closed⟩
  · rw [composite] at scalar
    exact absurd scalar (by decide)
  · exact closed

theorem Misfits.not_fits {field : SchemaField} (misfits : column.Misfits catalog field error) :
    ¬ column.Fits catalog field := by
  intro fits
  cases misfits with
  | custom custom scalar => exact scalar (fits.composite_of_custom custom)
  | kind _ scalar unstored =>
    rcases fits.stored with stored | ⟨composite, _⟩
    · exact unstored stored
    · exact scalar composite
  | reference composite none =>
    obtain ⟨reference, refers, _⟩ := fits.exists_closed composite
    rw [none] at refers
    cases refers
  | undeclared composite refers nearest =>
    obtain ⟨reference, other, closed⟩ := fits.exists_closed composite
    cases refers.symm.trans other
    exact nearest.not_isClosedFrom closed

theorem Offends.not_isWritable (offends : column.Offends catalog schema error) :
    ¬ column.IsWritable catalog schema := by
  rintro ⟨name, field, index, path, first, fits⟩
  cases offends with
  | whole top =>
    rw [top] at path
    cases path
  | unknown other missing =>
    cases path.symm.trans other
    exact missing (Schema.hasField_iff.mp
      (by rw [Schema.hasField, Schema.field?_eq_some_iff.mpr first, Option.isSome_some]))
  | field other found misfits =>
    cases path.symm.trans other
    cases (Schema.field?_eq_some_iff.mpr first).symm.trans (Schema.field?_eq_some_iff.mpr found)
    exact misfits.not_fits fits

end Column

namespace CompactTarget

/-- The check of a field says whether the column fits. -/
theorem checkField_cases (catalog : Catalog) (field : SchemaField) (column : Column) :
    checkField catalog field column.type = .ok () ∧ column.Fits catalog field ∨
      ∃ error, checkField catalog field column.type = .error error ∧
        column.Misfits catalog field error := by
  rw [checkField]
  split
  · next custom => exact .inr ⟨_, rfl, .custom custom.1 custom.2⟩
  · next fitting =>
    have compositeOfCustom : column.type.custom?.isSome = true → field.kind = .compact :=
      fun custom => by_contra fun scalar => fitting ⟨custom, scalar⟩
    split
    · next unstored =>
      rw [FieldKind.isColumnKind_iff, not_or] at unstored
      refine .inr ⟨_, rfl, .kind ?_ unstored.2 unstored.1⟩
      exact Option.not_isSome_iff_eq_none.mp fun custom => unstored.2 (compositeOfCustom custom)
    · next stored =>
      rw [not_not, FieldKind.isColumnKind_iff] at stored
      split
      · next composite =>
        split
        · next none => exact .inr ⟨_, rfl, .reference composite none⟩
        · next reference refers =>
          rcases catalog.resolve_cases reference with ⟨inner, resolved, closed⟩ |
            ⟨missing, resolved, nearest⟩
          · rw [resolved]
            exact .inl ⟨rfl, compositeOfCustom, .inr ⟨composite, reference, refers, closed⟩⟩
          · rw [resolved]
            exact .inr ⟨_, rfl, .undeclared composite refers nearest⟩
      · next scalar => exact .inl ⟨rfl, compositeOfCustom, .inl (stored.resolve_right scalar)⟩

/-- The write that is compiled for a column on a side. -/
inductive Compiles (schema : Schema) (side : Side) (column : Column) : Option Injector → Prop where
  | other (elsewhere : column.path.side ≠ side) : Compiles schema side column none
  | own {name : String} {field : SchemaField} {index : Nat} (here : column.path.side = side)
      (path : column.path.field = some name) (first : schema.IsFirst name field index) :
      Compiles schema side column (some ⟨some name, .compact index field.kind field.reference⟩)

/-- A target compiles the write of a column, or says why the column cannot be written. -/
theorem injector_cases (target : CompactTarget) (column : Column) :
    (column.IsWritable target.catalog target.schema ∧ ∃ injector,
      target.injector column.path.field column.type = .ok injector ∧
        Compiles target.schema column.path.side column (some injector)) ∨
      ∃ error, target.injector column.path.field column.type = .error error ∧
        column.Offends target.catalog target.schema error := by
  cases path : column.path.field with
  | none => exact .inr ⟨_, rfl, .whole path⟩
  | some name =>
    rw [injector]
    cases found : target.schema.field? name with
    | none =>
      refine .inr ⟨_, rfl, .unknown path fun known => ?_⟩
      have present := Schema.hasField_iff.mpr known
      rw [Schema.hasField, found] at present
      cases present
    | some place =>
      obtain ⟨field, index⟩ := place
      have first := Schema.field?_eq_some_iff.mp found
      rcases checkField_cases target.catalog field column with ⟨checked, fits⟩ |
        ⟨error, failed, misfits⟩
      · dsimp only
        rw [checked]
        exact .inl ⟨⟨name, field, index, path, first, fits⟩, _, rfl, .own rfl path first⟩
      · dsimp only
        rw [failed]
        exact .inr ⟨error, rfl, .field path first misfits⟩

/-- The error is that of the first column of the side that cannot be written. -/
def FirstOffence (target : CompactTarget) (side : Side) (columns : List Column) (error : Error) :
    Prop :=
  ∃ before column after, columns = before ++ column :: after ∧
    (∀ earlier ∈ before, earlier.path.side = side →
      earlier.IsWritable target.catalog target.schema) ∧
    column.path.side = side ∧ column.Offends target.catalog target.schema error ∧
    target.injector column.path.field column.type = .error error

/-- A column of the side is compiled, or it fails for what it offends by; one of the other side is
passed over. -/
theorem resolveColumn_cases (target : CompactTarget) (side : Side) (column : Column) :
    ((column.path.side = side → column.IsWritable target.catalog target.schema) ∧
      ∃ injector, resolveColumn target side column = .ok injector ∧
        Compiles target.schema side column injector) ∨
      ∃ error, resolveColumn target side column = .error error ∧ column.path.side = side ∧
        column.Offends target.catalog target.schema error ∧
        target.injector column.path.field column.type = .error error := by
  rw [resolveColumn]
  by_cases own : column.path.side = side
  · rw [if_pos own]
    rcases target.injector_cases column with ⟨writable, injector, made, compiles⟩ |
      ⟨error, failed, offends⟩
    · exact .inl ⟨fun _ => writable, some injector, congrArg (Except.map some) made, own ▸ compiles⟩
    · exact .inr ⟨error, congrArg (Except.map some) failed, own, offends, failed⟩
  · rw [if_neg own]
    exact .inl ⟨fun here => absurd here own, none, rfl, .other own⟩

/-- The columns are compiled one after another, up to the first that cannot be written. -/
theorem resolveInjectors_cases (target : CompactTarget) (side : Side) (columns : List Column) :
    ((∀ column ∈ columns, column.path.side = side →
        column.IsWritable target.catalog target.schema) ∧
      ∃ injectors, resolveInjectors target side columns = .ok injectors ∧
        List.Forall₂ (Compiles target.schema side) columns injectors) ∨
      ∃ error, resolveInjectors target side columns = .error error ∧
        target.FirstOffence side columns error := by
  induction columns with
  | nil => exact .inl ⟨by simp, [], rfl, .nil⟩
  | cons column columns ih =>
    rw [resolveInjectors]
    rcases target.resolveColumn_cases side column with ⟨writable, injector, made, compiles⟩ |
      ⟨error, failed, own, offends⟩
    · rw [made]
      rcases ih with ⟨others, injectors, resolved, each⟩ |
        ⟨error, failed, before, offender, after, rfl, earlier, offends⟩
      · rw [resolved]
        exact .inl ⟨List.forall_mem_cons.mpr ⟨writable, others⟩, _, rfl, .cons compiles each⟩
      · rw [failed]
        exact .inr ⟨error, rfl, column :: before, offender, after, rfl,
          List.forall_mem_cons.mpr ⟨writable, earlier⟩, offends⟩
    · rw [failed]
      exact .inr ⟨error, rfl, [], column, columns, rfl, by simp, own, offends⟩

theorem FirstOffence.exists_not_isWritable {target : CompactTarget} {columns : List Column}
    (offence : target.FirstOffence side columns error) :
    ∃ column ∈ columns, column.path.side = side ∧
      ¬ column.IsWritable target.catalog target.schema := by
  obtain ⟨before, column, after, rfl, _, own, offends, _⟩ := offence
  exact ⟨column, List.mem_append_right _ (List.mem_cons_self ..), own, offends.not_isWritable⟩

/-- The writes of a side are compiled exactly if each of its columns can be written to a record of
the schema. There is one entry for each column then, empty for those of the other side, and with the
first field of the name for the others. Otherwise the error is that of the first column that cannot
be written. -/
theorem resolveInjectors_of_columns (target : CompactTarget) (side : Side)
    (columns : List Column) :
    ((∃ injectors, resolveInjectors target side columns = .ok injectors) ↔
      ∀ column ∈ columns, column.path.side = side →
        column.IsWritable target.catalog target.schema) ∧
    (∀ injectors, resolveInjectors target side columns = .ok injectors →
      List.Forall₂ (Compiles target.schema side) columns injectors) ∧
    ∀ error, resolveInjectors target side columns = .error error →
      target.FirstOffence side columns error := by
  rcases target.resolveInjectors_cases side columns with ⟨writable, injectors, resolved, each⟩ |
    ⟨error, failed, offence⟩
  · rw [resolved]
    refine ⟨⟨fun _ => writable, fun _ => ⟨injectors, rfl⟩⟩, ?_, ?_⟩
    · intro other same
      cases same
      exact each
    · intro error same
      cases same
  · rw [failed]
    refine ⟨⟨?_, ?_⟩, ?_, ?_⟩
    · rintro ⟨injectors, same⟩
      cases same
    · intro writable
      obtain ⟨column, member, own, unwritable⟩ := offence.exists_not_isWritable
      exact absurd (writable column member own) unwritable
    · intro injectors same
      cases same
    · intro other same
      cases same
      exact offence

section Trips

def driverSchema : Schema :=
  .ofFields "Driver" [.scalar "name" .string]

def tripSchema : Schema :=
  .ofFields "Trip"
    [.scalar "km" .nullableInt32, .composite "driver" "Driver", .scalar "stops" .arrayOfString]

def tripTarget : CompactTarget :=
  .withSchema ((Catalog.empty.insert driverSchema).insert tripSchema) tripSchema

def driverColumn : Column :=
  ⟨⟨"driver", .custom ⟨"Driver", .compact⟩, false⟩, ⟨.value, some "driver"⟩⟩

def tripColumns : List Column :=
  [⟨⟨"trip", .bigInt, false⟩, ⟨.key, none⟩⟩, driverColumn,
    ⟨⟨"distance", .int, false⟩, ⟨.value, some "km"⟩⟩]

def tripInjectors : List (Option Injector) :=
  [none, some ⟨some "driver", .compact 1 .compact (some "Driver")⟩,
    some ⟨some "km", .compact 0 .nullableInt32 none⟩]

/-- A column for the stops, which are of a kind that no column is stored in. -/
def stopsColumn : Column :=
  ⟨⟨"stops", .object, true⟩, ⟨.value, some "stops"⟩⟩

private theorem resolveColumn_driver :
    resolveColumn tripTarget .value driverColumn =
      .ok (some ⟨some "driver", .compact 1 .compact (some "Driver")⟩) := by
  have found : tripTarget.catalog.find? "Driver" = some driverSchema := rfl
  have references : driverSchema.references = [] := rfl
  have resolved := Catalog.resolve_of_closed found (by simp [references])
  change Except.map some (Except.map _ (discard (tripTarget.catalog.resolve "Driver"))) = _
  rw [resolved]
  rfl

theorem resolveInjectors_of_trips :
    resolveInjectors tripTarget .value tripColumns = .ok tripInjectors ∧
    List.Forall₂ (Compiles tripSchema .value) tripColumns tripInjectors ∧
    resolveInjectors tripTarget .value (tripColumns ++ [stopsColumn]) =
      .error (.unsupportedKind .arrayOfString) ∧
    tripTarget.FirstOffence .value (tripColumns ++ [stopsColumn])
      (.unsupportedKind .arrayOfString) := by
  have resolved : resolveInjectors tripTarget .value tripColumns = .ok tripInjectors := by
    simp only [tripColumns, resolveInjectors, resolveColumn_driver]
    rfl
  have failed : resolveInjectors tripTarget .value (tripColumns ++ [stopsColumn]) =
      .error (.unsupportedKind .arrayOfString) := by
    simp only [tripColumns, List.cons_append, resolveInjectors, resolveColumn_driver]
    rfl
  obtain ⟨_, compiled, _⟩ := resolveInjectors_of_columns tripTarget .value tripColumns
  obtain ⟨_, _, offence⟩ :=
    resolveInjectors_of_columns tripTarget .value (tripColumns ++ [stopsColumn])
  exact ⟨resolved, compiled _ resolved, failed, offence _ failed⟩

end Trips

end CompactTarget

end RowProjection
