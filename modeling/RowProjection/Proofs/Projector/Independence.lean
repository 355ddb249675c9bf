import RowProjection.Proofs.Projector.Agreement
import RowProjection.Proofs.Projector.Restart

namespace RowProjection

/-- The half of an entry on a side. -/
def Entry.of (entry : Entry) : Side → Value :=
  Side.choose entry.key entry.value

/-- Rows with the same values in the columns of a side. What is missing at the end of a row reads
as null, and values behind the last column belong to no side. -/
def Row.AgreesOn (side : Side) (columns : List Column) (left right : Row) : Prop :=
  ∀ ordinal column, columns[ordinal]? = some column → column.path.side = side →
    left.get ordinal = right.get ordinal

section Resolution

variable {τ : Type} [Target τ] {target : τ} {side : Side} {columns : List Column}
  {injectors : List (Option Injector)}

theorem length_resolveInjectors (made : resolveInjectors target side columns = .ok injectors) :
    injectors.length = columns.length := by
  induction columns generalizing injectors with
  | nil =>
    cases made
    rfl
  | cons column columns ih =>
    obtain ⟨first, others, _, othersMade, rfl⟩ := resolveInjectors_cons made
    rw [List.length_cons, List.length_cons, ih othersMade]

/-- Injectors stand at the places of the columns of their side. -/
theorem exists_column_of_injector {ordinal : Nat} {injector : Injector}
    (made : resolveInjectors target side columns = .ok injectors)
    (present : injectors[ordinal]? = some (some injector)) :
    ∃ column, columns[ordinal]? = some column ∧ column.path.side = side := by
  induction columns generalizing injectors ordinal with
  | nil =>
    cases made
    cases present
  | cons column columns ih =>
    obtain ⟨first, others, firstMade, othersMade, rfl⟩ := resolveInjectors_cons made
    cases ordinal with
    | zero =>
      cases present
      by_cases own : column.path.side = side
      · exact ⟨column, rfl, own⟩
      · cases resolveColumn_other own firstMade
    | succ ordinal => exact ih othersMade present

end Resolution

namespace Sides

/-- The target of one side behind the columns from an ordinal on: those with an injector are
written to it, one after another. -/
def writeSide {τ : Type} [Target τ] (row : Row) : Nat → List (Option Injector) → τ → τ
  | _, [], target => target
  | ordinal, injector :: rest, target =>
    writeSide row (ordinal + 1) rest (writeOne target injector (row.get ordinal)).2

theorem writeSide_congr {τ : Type} [Target τ] {left right : Row}
    {injectors : List (Option Injector)} {ordinal : Nat} (target : τ)
    (agree : ∀ place injector, injectors[place]? = some (some injector) →
      left.get (ordinal + place) = right.get (ordinal + place)) :
    writeSide left ordinal injectors target = writeSide right ordinal injectors target := by
  induction injectors generalizing ordinal target with
  | nil => rfl
  | cons head rest ih =>
    have first : writeOne target head (left.get ordinal) =
        writeOne target head (right.get ordinal) := by
      cases head with
      | none => rfl
      | some injector => exact congrArg (writeOne target (some injector)) (agree 0 injector rfl)
    rw [writeSide, writeSide, first]
    apply ih
    intro place injector present
    rw [Nat.succ_add_eq_add_succ]
    exact agree (place + 1) injector present

variable {κ ν : Type} [Target κ] [Target ν] {sides after : Sides κ ν}

theorem writeColumn_eq_ok {key value : Option Injector} {content : Value}
    (written : sides.writeColumn key value content = (.ok (), after)) :
    after = ⟨(writeOne sides.key key content).2, (writeOne sides.value value content).2⟩ := by
  unfold writeColumn at written
  split at written
  · cases written
  · next keyTarget keyWritten =>
    rw [keyWritten]
    exact (Prod.mk.inj written).2.symm

/-- Columns that are all written reach each target through the injectors of its side only. -/
theorem writeColumns_eq_ok {row : Row} {keys values : List (Option Injector)} {ordinal : Nat}
    (same : keys.length = values.length)
    (written : writeColumns row ordinal (keys.zip values) sides = (.ok (), after)) :
    after = ⟨writeSide row ordinal keys sides.key, writeSide row ordinal values sides.value⟩ := by
  induction keys generalizing values ordinal sides with
  | nil =>
    cases values with
    | nil => exact (Prod.mk.inj written).2.symm
    | cons => cases same
  | cons key keys ih =>
    cases values with
    | nil => cases same
    | cons value values =>
      rw [List.zip_cons_cons, writeColumns] at written
      split at written
      · cases written
      · next next first =>
        rw [ih (Nat.succ.inj same) written, writeColumn_eq_ok first]
        rfl

/-- An entry is put together from what the two targets conclude. -/
theorem conclude_eq_ok {failOnNulls : Bool} {entry : Entry}
    (concluded : (sides.conclude failOnNulls).1 = .ok entry) :
    (Target.conclude sides.key).1 = .ok entry.key ∧
      (Target.conclude sides.value).1 = .ok entry.value := by
  unfold conclude at concluded
  dsimp only at concluded
  split at concluded
  · cases concluded
  · next key keyAccepted =>
    obtain ⟨content, keyConcluded, accepted⟩ := Except.bind_eq_ok_iff.mp keyAccepted
    obtain ⟨_, _, rfl⟩ := Except.map_eq_ok_iff.mp accepted
    obtain ⟨value, valueConcluded, concluded⟩ := Except.bind_eq_ok_iff.mp concluded
    obtain ⟨_, _, concluded⟩ := Except.bind_eq_ok_iff.mp concluded
    cases concluded
    exact ⟨keyConcluded, valueConcluded⟩

end Sides

/-- What a row that succeeds has on each side is concluded from the injectors of that side. -/
theorem Projector.project_eq_ok {κ ν : Type} [Target κ] [Target ν] {projector : Projector κ ν}
    {row : Row} {entry : Entry}
    (same : projector.keyInjectors.length = projector.valueInjectors.length)
    (done : (projector.project row).1 = .ok entry) :
    (Target.conclude (Sides.writeSide row 0 projector.keyInjectors
      (Target.start projector.targets.key))).1 = .ok entry.key ∧
    (Target.conclude (Sides.writeSide row 0 projector.valueInjectors
      (Target.start projector.targets.value))).1 = .ok entry.value := by
  unfold project at done
  dsimp only at done
  split at done
  · cases done
  · next targets written =>
    have concluded := Sides.conclude_eq_ok done
    rw [Sides.writeColumns_eq_ok same written] at concluded
    exact concluded

namespace Supplier

/-- Rows that succeed and agree on the columns of a side have the same result on that side,
whatever stands in the other columns and whichever rows came before. -/
theorem same_side_of_agreesOn (supplier : Supplier) (context : Context)
    (projector : Projector AnyTarget AnyTarget) (built : supplier.get context = .ok projector)
    (side : Side) (left right : Row) (agree : left.AgreesOn side supplier.columns right)
    (beforeLeft beforeRight : List Row) (leftEntry rightEntry : Entry)
    (leftDone : ((projector.after beforeLeft).project left).1 = .ok leftEntry)
    (rightDone : ((projector.after beforeRight).project right).1 = .ok rightEntry) :
    leftEntry.of side = rightEntry.of side := by
  rw [Projector.project_after] at leftDone rightDone
  obtain ⟨key, value, keys, values, _, _, keysMade, valuesMade, rfl⟩ := get_cases built
  have same : keys.length = values.length :=
    (length_resolveInjectors keysMade).trans (length_resolveInjectors valuesMade).symm
  obtain ⟨leftKey, leftValue⟩ := Projector.project_eq_ok same leftDone
  obtain ⟨rightKey, rightValue⟩ := Projector.project_eq_ok same rightDone
  have agreeAt {target : AnyTarget} {injectors : List (Option Injector)}
      (made : resolveInjectors target side supplier.columns = .ok injectors) (place : Nat)
      (injector : Injector) (present : injectors[place]? = some (some injector)) :
      left.get (0 + place) = right.get (0 + place) := by
    obtain ⟨column, columnAt, own⟩ := exists_column_of_injector made present
    rw [Nat.zero_add]
    exact agree place column columnAt own
  cases side with
  | key =>
    rw [Sides.writeSide_congr _ (agreeAt keysMade)] at leftKey
    exact Except.ok.inj (leftKey.symm.trans rightKey)
  | value =>
    rw [Sides.writeSide_congr _ (agreeAt valuesMade)] at leftValue
    exact Except.ok.inj (leftValue.symm.trans rightValue)

/-- Points with the same number have the same key, also where one row ends early, and points with
the same member the same value, also where one row has more to it. -/
theorem same_side_of_points : ∃ projector keyed short moved,
    pointSupplier.get (.ofCatalog .empty) = .ok projector ∧
      (projector.project ⟨[.int 3, .int 4]⟩).1 = .ok keyed ∧
      (projector.project ⟨[.int 3]⟩).1 = .ok short ∧
      ((projector.after brokenRows).project ⟨[.int 5, .int 4, .int 6]⟩).1 = .ok moved ∧
      keyed.of .key = short.of .key ∧ keyed.of .value = moved.of .value := by
  refine ⟨_, _, _, _, rfl, rfl, rfl, rfl, ?_, ?_⟩
  · refine same_side_of_agreesOn pointSupplier (.ofCatalog .empty) _ rfl .key ⟨[.int 3, .int 4]⟩
      ⟨[.int 3]⟩ ?_ [] [] _ _ rfl rfl
    intro ordinal column columnAt own
    match ordinal, columnAt with
    | 0, _ => rfl
    | 1, rfl => cases own
  · refine same_side_of_agreesOn pointSupplier (.ofCatalog .empty) _ rfl .value
      ⟨[.int 3, .int 4]⟩ ⟨[.int 5, .int 4, .int 6]⟩ ?_ [] brokenRows _ _ rfl rfl
    intro ordinal column columnAt own
    match ordinal, columnAt with
    | 0, rfl => cases own
    | 1, _ => rfl

end Supplier

end RowProjection
