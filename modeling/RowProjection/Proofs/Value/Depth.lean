import Mathlib.Logic.Function.Iterate
import RowProjection.Proofs.Value.Components

namespace RowProjection.Value

mutual

/-- How many rows, records and objects stand inside each other, where they do so the most. -/
def depth : Value → Nat
  | row values => deepest values + 1
  | record _ values => deepest values + 1
  | object _ fields => deepestNamed fields + 1
  | map entries => deepestNamed entries
  | _ => 0

def deepest : List Value → Nat
  | [] => 0
  | value :: rest => max (depth value) (deepest rest)

def deepestNamed : List (String × Value) → Nat
  | [] => 0
  | (_, value) :: rest => max (depth value) (deepestNamed rest)

end

variable {value part : Value} {values : List Value} {bound : Nat}

theorem deepestNamed_eq (fields : List (String × Value)) :
    deepestNamed fields = deepest (fields.map (·.2)) := by
  induction fields with
  | nil => rfl
  | cons field fields ih => rw [deepestNamed, ih, List.map_cons, deepest]

theorem deepest_le_iff : deepest values ≤ bound ↔ ∀ part ∈ values, part.depth ≤ bound := by
  induction values with
  | nil => simp [deepest]
  | cons value values ih => rw [deepest, Nat.max_le, ih, List.forall_mem_cons]

theorem depth_le_deepest (member : part ∈ values) : part.depth ≤ deepest values :=
  deepest_le_iff.mp (Nat.le_refl _) part member

/-- Rows, records and objects, the values that count for the depth. -/
def IsStructured : Value → Prop
  | row _ | record _ _ | object _ _ => True
  | _ => False

theorem depth_of_structured (structured : value.IsStructured) :
    value.depth = deepest value.components + 1 := by
  cases value with
  | row | record => rfl
  | object typeName fields => rw [depth, deepestNamed_eq, components]
  | _ => cases structured

theorem depth_lt_of_component (structured : value.IsStructured)
    (member : part ∈ value.components) : part.depth < value.depth := by
  rw [depth_of_structured structured]
  exact Nat.lt_succ_of_le (depth_le_deepest member)

section Levels

variable {Argument Answer : Type}

/-- A computation that calls itself on shallower values is settled, at each value, by more levels of
it than the value is deep. What it is cut off with has no part in the answer. -/
theorem iterate_eq_of_shallower
    {level : (Value → Argument → Answer) → Value → Argument → Answer}
    {solution : Value → Argument → Answer} (solves : level solution = solution)
    (shallower : ∀ (first second : Value → Argument → Answer) (value : Value),
      (∀ part : Value, part.depth < value.depth → first part = second part) →
        level first value = level second value)
    (beyond : Value → Argument → Answer) {levels : Nat} (enough : value.depth < levels) :
    level^[levels] beyond value = solution value := by
  induction levels generalizing value with
  | zero => exact absurd enough (Nat.not_lt_zero _)
  | succ levels ih =>
    rw [Function.iterate_succ_apply', shallower _ solution value, solves]
    exact fun part less => ih (Nat.lt_of_lt_of_le less (Nat.le_of_lt_succ enough))

end Levels

end RowProjection.Value
