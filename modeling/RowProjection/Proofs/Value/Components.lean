import RowProjection.Record.Basic

/-! Parts of composite values. A statement about whatever a value holds, however deep, is made
with `Throughout`, and a proof about values goes by induction on their parts. -/

namespace RowProjection

namespace Value

/-- The values that a composite value is made of. -/
def components : Value → List Value
  | map entries => entries.map (·.2)
  | row values => values
  | record _ values => values
  | object _ fields => fields.map (·.2)
  | _ => []

theorem mem_of_mem_zip {names : List String} {values : List Value} {part : Value}
    (member : part ∈ (names.zip values).map (·.2)) : part ∈ values := by
  obtain ⟨⟨name, value⟩, present, rfl⟩ := List.mem_map.mp member
  exact (List.of_mem_zip present).2

private theorem sizeOf_lt_of_named {fields : List (String × Value)} {part : Value}
    (member : part ∈ fields.map (·.2)) : sizeOf part < sizeOf fields := by
  obtain ⟨⟨name, value⟩, present, same⟩ := List.mem_map.mp member
  subst part
  have bound := List.sizeOf_lt_of_mem present
  simp only [Prod.mk.sizeOf_spec] at bound ⊢
  omega

theorem sizeOf_component_lt {value part : Value} (member : part ∈ value.components) :
    sizeOf part < sizeOf value := by
  cases value with
  | map entries =>
    have bound : sizeOf part < _ := sizeOf_lt_of_named member
    simp only [map.sizeOf_spec]
    omega
  | row values =>
    have bound : sizeOf part < sizeOf values := List.sizeOf_lt_of_mem member
    simp only [row.sizeOf_spec]
    omega
  | record schema values =>
    have bound : sizeOf part < sizeOf values := List.sizeOf_lt_of_mem member
    simp only [record.sizeOf_spec]
    omega
  | object typeName fields =>
    have bound : sizeOf part < _ := sizeOf_lt_of_named member
    simp only [object.sizeOf_spec]
    omega
  | _ => simp [components] at member

/-- What holds of a value whenever it holds of its parts holds of every value. -/
@[elab_as_elim]
theorem componentInduction {motive : Value → Prop}
    (step : ∀ value, (∀ part ∈ value.components, motive part) → motive value) (value : Value) :
    motive value :=
  step value fun part member =>
    have := sizeOf_component_lt member
    componentInduction step part
termination_by sizeOf value

/-- A value occurs in itself, and in all values with a part in which it occurs. -/
inductive OccursIn (inner : Value) : Value → Prop where
  | self : OccursIn inner inner
  | part {value part : Value} (member : part ∈ value.components) (deeper : OccursIn inner part) :
      OccursIn inner value

/-- A property of all values that occur in a value. -/
def Throughout (holds : Value → Prop) (value : Value) : Prop :=
  ∀ inner : Value, inner.OccursIn value → holds inner

/-- A property of records, for all values: nothing is asked of those that are no records. -/
def OnRecord (holds : Record → Prop) : Value → Prop
  | record schema values => holds ⟨schema, values⟩
  | _ => True

variable {holds : Value → Prop} {value : Value}

theorem throughout_iff :
    value.Throughout holds ↔ holds value ∧ ∀ part ∈ value.components, part.Throughout holds := by
  constructor
  · intro all
    exact ⟨all value .self, fun part member inner occurs => all inner (.part member occurs)⟩
  · rintro ⟨own, parts⟩ inner occurs
    cases occurs with
    | self => exact own
    | part member deeper => exact parts _ member inner deeper

theorem throughout_iff_self (single : value.components = []) :
    value.Throughout holds ↔ holds value := by
  rw [throughout_iff, single]
  simp

theorem Throughout.self (all : value.Throughout holds) : holds value :=
  all value .self

theorem Throughout.part {part : Value} (all : value.Throughout holds)
    (member : part ∈ value.components) : part.Throughout holds :=
  (throughout_iff.mp all).2 part member

theorem Throughout.within {inner : Value} (all : value.Throughout holds)
    (occurs : inner.OccursIn value) : inner.Throughout holds := by
  induction occurs with
  | self => exact all
  | part member _ ih => exact ih (all.part member)

theorem throughout_onRecord_iff {holds : Record → Prop} : value.Throughout (OnRecord holds) ↔
    ∀ inner : Record, inner.toValue.OccursIn value → holds inner := by
  constructor
  · exact fun all inner occurs => all inner.toValue occurs
  · intro all inner occurs
    cases inner with
    | record schema values => exact all ⟨schema, values⟩ occurs
    | _ => trivial

end Value

end RowProjection
