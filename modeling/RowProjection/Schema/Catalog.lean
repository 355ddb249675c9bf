import RowProjection.Schema.Basic
import RowProjection.Table

/-!
The catalog of declared schemas. Schemas are found by name, and for decoding by fingerprint.
References may form cycles: a walk along them visits each name once.
-/

namespace RowProjection

/-- Each schema stands under its own name. -/
structure Catalog where
  types : Table String Schema
  byFingerprint : Table UInt32 Schema
  named : ∀ name schema, types.find? name = some schema → schema.name = name
  deriving Repr

namespace Catalog

def empty : Catalog :=
  ⟨.empty, .empty, by simp⟩

def find? (catalog : Catalog) (name : String) : Option Schema :=
  catalog.types.find? name

def contains (catalog : Catalog) (name : String) : Bool :=
  catalog.types.contains name

def size (catalog : Catalog) : Nat :=
  catalog.types.size

/-- The schema that records with this fingerprint are decoded by. -/
def findByFingerprint? (catalog : Catalog) (fingerprint : UInt32) : Option Schema :=
  catalog.byFingerprint.find? fingerprint

/-- Enters a schema under its name and its fingerprint. -/
def insert (catalog : Catalog) (schema : Schema) : Catalog where
  types := catalog.types.insert schema.name schema
  byFingerprint := catalog.byFingerprint.insert schema.fingerprint schema
  named name other found := by
    rw [Table.find?_insert] at found
    split at found
    · next same =>
      cases found
      exact same.symm
    · exact catalog.named name other found

theorem findByFingerprint?_insert (catalog : Catalog) (schema : Schema) (fingerprint : UInt32) :
    (catalog.insert schema).findByFingerprint? fingerprint =
      if fingerprint = schema.fingerprint then some schema
      else catalog.findByFingerprint? fingerprint :=
  Table.find?_insert ..

/-- Declares a schema under a new name. The schemas it refers to may be declared later. -/
def create (catalog : Catalog) (schema : Schema) : Except Error Catalog :=
  if catalog.contains schema.name then .error (.duplicateType schema.name)
  else .ok (catalog.insert schema)

/-- Declares a schema, in place of an earlier one of the same name. Records of the earlier one
are no longer decoded. -/
def replace (catalog : Catalog) (schema : Schema) : Catalog :=
  match catalog.find? schema.name with
  | some previous =>
    { catalog with byFingerprint := catalog.byFingerprint.erase previous.fingerprint }.insert schema
  | none => catalog.insert schema

/-- The first schema whose name is declared already or stands earlier in the list. -/
def firstDuplicate? (catalog : Catalog) (seen : List String) : List Schema → Option String
  | [] => none
  | schema :: rest =>
    if catalog.contains schema.name ∨ schema.name ∈ seen then some schema.name
    else firstDuplicate? catalog (schema.name :: seen) rest

/-- The first reference to a name that is neither declared nor in the batch. -/
def firstMissing? (catalog : Catalog) (batch : List Schema) : Option String :=
  (batch.flatMap Schema.references).find? fun name =>
    !(batch.map (·.name)).contains name && !catalog.contains name

/-- Declares several schemas at once, which may refer to each other in any order. Nothing is
declared if a name is not new or a reference leads nowhere. -/
def declareBatch (catalog : Catalog) (batch : List Schema) : Except Error Catalog :=
  match catalog.firstDuplicate? [] batch with
  | some name => .error (.duplicateType name)
  | none =>
    match catalog.firstMissing? batch with
    | some name => .error (.missingType name)
    | none => .ok (batch.foldl insert catalog)

/-- A call on a catalog, which may change it before it fails. -/
abbrev Change (α : Type) := ExceptT Error (StateM Catalog) α

/-- The answer of a call, and the catalog that it leaves behind. -/
def outcome {α : Type} (catalog : Catalog) (change : Change α) : Except Error α × Catalog :=
  change.run.run catalog

/-- Refuses a name that is declared, or that was met before; otherwise it is met now. -/
def checkName (met : List String) (schema : Schema) : Change (List String) := do
  let catalog ← get
  if catalog.contains schema.name ∨ schema.name ∈ met then throw (.duplicateType schema.name)
  return schema.name :: met

/-- Refuses a schema that refers to a name which is neither in the batch nor declared. -/
def checkReferences (names : List String) (schema : Schema) : Change Unit := do
  let catalog ← get
  match schema.references.find? fun name => !names.contains name && !catalog.contains name with
  | some name => throw (.missingType name)
  | none => return ()

/-- Declares several schemas on the catalog itself: all names are checked, then all references, and
only then the schemas are entered one after another. -/
def declareAll (batch : List Schema) : Change Unit := do
  let names ← batch.foldlM checkName []
  forM batch (checkReferences names)
  forM batch fun schema => modify (·.insert schema)

/-- How many declared names a walk has not yet visited. -/
def unvisited (catalog : Catalog) (visited : List String) : Nat :=
  catalog.types.entries.countP fun entry => decide (entry.1 ∉ visited)

private theorem countP_lt_of_imp {α : Type} {narrow wide : α → Bool} {items : List α}
    (implies : ∀ item, narrow item = true → wide item = true) {item : α} (member : item ∈ items)
    (holds : wide item = true) (fails : narrow item = false) :
    items.countP narrow < items.countP wide := by
  induction items with
  | nil => cases member
  | cons head rest hypothesis =>
    have most := List.countP_mono_left fun item (_ : item ∈ rest) => implies item
    simp only [List.countP_cons]
    rcases List.mem_cons.mp member with same | later
    · rw [← same, if_pos holds, fails]
      simp only [Bool.false_eq_true, ↓reduceIte]
      omega
    · have smaller := hypothesis later
      by_cases here : narrow head = true
      · rw [if_pos here, if_pos (implies head here)]
        omega
      · rw [if_neg here]
        omega

private theorem unvisited_lt {catalog : Catalog} {visited : List String} {name : String}
    {schema : Schema} (fresh : name ∉ visited) (found : catalog.find? name = some schema) :
    catalog.unvisited (name :: visited) < catalog.unvisited visited := by
  obtain ⟨entry, first, _⟩ := Option.map_eq_some_iff.mp found
  have same : entry.1 = name := by simpa using List.find?_some first
  apply countP_lt_of_imp _ (List.mem_of_find?_eq_some first)
  · simpa [same] using fresh
  · simp [same]
  · intro other
    simp

/-- Visits the names of a queue breadth first and collects their schemas; a name that was visited
before is passed over. -/
def walk (catalog : Catalog) (visited : List String) : List String → Except Error (List Schema)
  | [] => .ok []
  | name :: queue =>
    if name ∈ visited then walk catalog visited queue
    else
      match _found : catalog.find? name with
      | none => .error (.missingType name)
      | some schema =>
        (walk catalog (name :: visited) (queue ++ schema.references)).map (schema :: ·)
termination_by queue => (catalog.unvisited visited, queue.length)
decreasing_by
  · exact Prod.Lex.right _ (by simp)
  · exact Prod.Lex.left _ _ (unvisited_lt ‹_› ‹_›)

/-- All schemas that can be reached from a name by references, the nearest first. -/
def closure (catalog : Catalog) (name : String) : Except Error (List Schema) :=
  catalog.walk [] [name]

/-- The schema of a name, if all types it can reach are declared. -/
def resolve (catalog : Catalog) (name : String) : Except Error Schema := do
  discard (catalog.closure name)
  match catalog.find? name with
  | some schema => .ok schema
  | none => .error (.missingType name)

end Catalog

end RowProjection
