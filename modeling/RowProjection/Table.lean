/-!
Finite tables: one value for each key. What a table holds is told by `find?` alone; the laws of
`insert` and `erase` are stated through it.
-/

namespace RowProjection

/-- Entries by key. Of two entries with one key only the first is seen. -/
structure Table (κ α : Type) where
  entries : List (κ × α)
  deriving Repr

namespace Table

variable {κ α : Type} [DecidableEq κ]

def empty : Table κ α :=
  ⟨[]⟩

def find? (table : Table κ α) (key : κ) : Option α :=
  (table.entries.find? (·.1 = key)).map (·.2)

def contains (table : Table κ α) (key : κ) : Bool :=
  (table.find? key).isSome

def erase (table : Table κ α) (key : κ) : Table κ α :=
  ⟨table.entries.filter (·.1 ≠ key)⟩

/-- Enters a value under a key in place of the one it had. -/
def insert (table : Table κ α) (key : κ) (value : α) : Table κ α :=
  ⟨(key, value) :: (table.erase key).entries⟩

def size (table : Table κ α) : Nat :=
  table.entries.length

@[simp] theorem find?_empty (key : κ) : (empty : Table κ α).find? key = none := rfl

theorem find?_erase (table : Table κ α) (key other : κ) :
    (table.erase key).find? other = if other = key then none else table.find? other := by
  simp only [find?, erase, List.find?_filter]
  split
  · next same =>
    subst same
    simp
  · next different =>
    congr 2
    funext entry
    by_cases found : entry.1 = other <;> simp [found, different]

theorem find?_insert (table : Table κ α) (key other : κ) (value : α) :
    (table.insert key value).find? other =
      if other = key then some value else table.find? other := by
  by_cases same : other = key
  · simp [find?, insert, same]
  · have erased := find?_erase table key other
    simp only [same, ↓reduceIte] at erased
    rw [if_neg same, ← erased]
    simp [find?, insert, Ne.symm same]

end Table

end RowProjection
