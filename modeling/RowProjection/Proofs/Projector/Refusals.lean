import RowProjection.Proofs.Projector.Breaches
import RowProjection.Proofs.Value.Conversion

namespace RowProjection

namespace Converters

theorem followSchemas_empty : FollowSchemas .empty := by
  intro name converter registered
  cases registered

theorem FollowSchemas.insert {converters : Converters} (followed : converters.FollowSchemas)
    (name typeName : String) : FollowSchemas (Table.insert converters name (.ofType typeName)) := by
  intro other converter registered
  rw [Table.find?_insert] at registered
  split at registered
  · exact ⟨typeName, (Option.some.inj registered).symm⟩
  · exact followed other converter registered

end Converters

section Columns

variable {origins : Side → AnyTarget}

/-- Where no column failed, each has converted its value. -/
theorem attempt_of_attemptAll {columns : List Column} {row : Row} {ordinal place : Nat}
    {column : Column} (success : Column.attemptAll origins row ordinal columns = .ok ())
    (here : columns[place]? = some column) :
    column.attempt origins (row.get (ordinal + place)) = .ok () := by
  induction columns generalizing ordinal place with
  | nil => cases here
  | cons head columns ih =>
    obtain ⟨_, first, others⟩ := Except.bind_eq_ok_iff.mp success
    cases place with
    | zero =>
      cases here
      exact first
    | succ place =>
      rw [← Nat.succ_add_eq_add_succ]
      exact ih others here

end Columns

namespace Supplier

variable {supplier : Supplier} {context : Context}

/-- Some column of a row has a value that its target does not convert. -/
def Refuses (supplier : Supplier) (context : Context) (row : Row) : Prop :=
  ∃ place column target injector failure, supplier.columns[place]? = some column ∧
    (supplier.descriptor column.path.side).create context = .ok target ∧
    Target.injector target column.path.field column.type = .ok injector ∧
    target.conversion injector (row.get place) = .error failure

theorem project_refused {projector : Projector AnyTarget AnyTarget} {row : Row}
    (built : supplier.get context = .ok projector) (refused : supplier.Refuses context row) :
    ∃ failure, (projector.project row).1 = .error failure := by
  obtain ⟨origins, keys, values, created, keysMade, valuesMade, rfl⟩ := get_eq_ok built
  obtain ⟨place, column, target, injector, failure, here, made, compiled, failed⟩ := refused
  cases (created column.path.side).symm.trans made
  cases attempted : Column.attemptAll origins row 0 supplier.columns with
  | error first =>
    exact ⟨first, (project_inProgress keysMade valuesMade supplier.failOnNulls row).1 attempted⟩
  | ok =>
    have converted := attempt_of_attemptAll attempted here
    rw [Column.attempt_own rfl compiled, Nat.zero_add, failed] at converted
    cases converted

/-- A conversion answers a value or the error that names the kind of the value and the type,
unless it leaves the calendar. A row whose moments all have local dates gives an entry or an error,
and gives no entry where a column refuses its value. -/
theorem refusals_surface (supplier : Supplier) (context : Context)
    (projector : Projector AnyTarget AnyTarget) (built : supplier.get context = .ok projector)
    (followed : context.converters.FollowSchemas) :
    (∀ (value : Value) (type : DataType), ¬ value.LeavesCalendar type ↔
      (∃ converted, value.convertTo type = .ok converted) ∨
        value.convertTo type = .error (.error (.conversion value.kindName type.text))) ∧
    ∀ row : Row, row.IsLocal →
      (∃ entry, (projector.project row).1 = .ok entry ∧ ¬ supplier.Refuses context row) ∨
        ∃ error, (projector.project row).1 = .error (.error error) := by
  refine ⟨fun value type => ?_, fun row isLocal => ?_⟩
  · rcases value.convertTo_cases type with ⟨converted, same⟩ | same | ⟨leaves, same⟩
    · refine iff_of_true (fun leaves => ?_) (.inl ⟨converted, same⟩)
      cases same.symm.trans (Value.convertTo_of_leavesCalendar leaves)
    · refine iff_of_true (fun leaves => ?_) (.inr same)
      cases same.symm.trans (Value.convertTo_of_leavesCalendar leaves)
    · simp [same, leaves]
  · cases projected : (projector.project row).1 with
    | ok entry =>
      refine .inl ⟨entry, rfl, fun refused => ?_⟩
      obtain ⟨failure, failed⟩ := project_refused built refused
      cases projected.symm.trans failed
    | error failure =>
      cases failure with
      | error error => exact .inr ⟨error, rfl⟩
      | breach breach => exact absurd rfl (project_spared built followed isLocal projected breach)

section Visits

/-- The first moment of the calendar, shown one second further west. -/
def firstMoment : Calendar.OffsetTimestamp where
  utc := ⟨⟨Calendar.leastDay, Int.le_refl _, by decide⟩, .midnight⟩
  offset := -1
  offset_lt := by decide

theorem visit_refused : ∃ projector, visitSupplier.get visitContext = .ok projector ∧
    visitSupplier.Refuses visitContext ⟨[.int 1, .row [.boolean true]]⟩ ∧
    ∃ error, (projector.project ⟨[.int 1, .row [.boolean true]]⟩).1 = .error (.error error) := by
  have followed : visitContext.converters.FollowSchemas :=
    Converters.followSchemas_empty.insert "Visit" "Visit"
  have isLocal : Row.IsLocal ⟨[.int 1, .row [.boolean true]]⟩ := by
    have flag : (Value.boolean true).Throughout Value.IsLocal :=
      (Value.throughout_iff_self rfl).mpr trivial
    have visit : (Value.row [.boolean true]).Throughout Value.IsLocal :=
      Value.throughout_iff.mpr ⟨trivial, List.forall_mem_singleton.mpr flag⟩
    have number : (Value.int 1).Throughout Value.IsLocal :=
      (Value.throughout_iff_self rfl).mpr trivial
    exact List.forall_mem_cons.mpr ⟨number, List.forall_mem_singleton.mpr visit⟩
  have refused : visitSupplier.Refuses visitContext ⟨[.int 1, .row [.boolean true]]⟩ :=
    ⟨1, _, _, _, _, rfl, rfl, rfl, rfl⟩
  have surfaced := refusals_surface visitSupplier visitContext _ rfl followed
  rcases surfaced.2 _ isLocal with ⟨entry, _, taken⟩ | reported
  · exact absurd refused taken
  · exact ⟨_, rfl, refused, reported⟩

/-- The local date of the moment is the day before the first. -/
theorem firstMoment_aborts_row :
    (Value.timestampTz firstMoment).convertTo .date = .error (.breach .localDateOutOfRange) ∧
    ∃ projector, visitSupplier.get visitContext = .ok projector ∧
      (projector.project ⟨[.int 1, .row [.timestampTz firstMoment]]⟩).1 =
        .error (.breach .localDateOutOfRange) :=
  ⟨rfl, _, rfl, rfl⟩

end Visits

end Supplier

end RowProjection
