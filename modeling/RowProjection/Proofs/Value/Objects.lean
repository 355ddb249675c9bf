import RowProjection.Proofs.Value.Components
import RowProjection.Record.Conversion

namespace RowProjection.Value

variable {catalog : Catalog} {value : Value}

/-- The part of a value that a field of an object takes: by position from a row, by name from
records and objects. -/
def fieldOf? : Value → Nat → String → Option Value
  | row values, index, _ => values[index]?
  | record own values, _, name => named? ((own.fields.map (·.name)).zip values) name
  | object _ fields, _, name => named? fields name
  | _, _, _ => none

theorem entry_of_named? {fields : List (String × Value)} {name : String} {part : Value}
    (found : named? fields name = some part) : (name, part) ∈ fields := by
  obtain ⟨field, first, rfl⟩ := Option.map_eq_some_iff.mp found
  have same : field.1 = name := by simpa using List.find?_some first
  rw [← same]
  exact List.mem_of_find?_eq_some first

theorem mem_of_named? {fields : List (String × Value)} {name : String} {part : Value}
    (found : named? fields name = some part) : part ∈ fields.map (·.2) :=
  List.mem_map_of_mem (entry_of_named? found)

theorem mem_of_fieldOf? {index : Nat} {name : String} {part : Value}
    (found : value.fieldOf? index name = some part) : part ∈ value.components := by
  cases value with
  | row values => exact List.mem_of_getElem? found
  | record own values => exact mem_of_mem_zip (mem_of_named? found)
  | object typeName fields => exact mem_of_named? found
  | _ => cases found

/-- What a field takes is a part of the value, with the conversion that is given for it. -/
theorem part_of_fieldOf? {nested : Value → Schema → Except Failure Value} {index : Nat}
    {name : String} {part : Part}
    (found : (value.fieldOf? index name).map (fun taken => ⟨taken, nested taken⟩) = some part) :
    part.value ∈ value.components ∧ part.toObject = nested part.value := by
  obtain ⟨taken, present, rfl⟩ := Option.map_eq_some_iff.mp found
  exact ⟨mem_of_fieldOf? present, rfl⟩

/-- The object of a schema made of the parts of a value, where their conversion is open. -/
def objectOf (catalog : Catalog) (nested : Value → Schema → Except Failure Value) (value : Value)
    (schema : Schema) : Except Failure Value :=
  objectOfParts catalog schema fun index name =>
    (value.fieldOf? index name).map fun part => ⟨part, nested part⟩

/-- One level of the conversion to native objects. -/
def level (catalog : Catalog) (nested : Value → Schema → Except Failure Value) (value : Value)
    (schema : Schema) : Except Failure Value :=
  match value with
  | null => .ok null
  | object typeName _ =>
    if typeName = schema.name then .ok value else objectOf catalog nested value schema
  | row _ | record _ _ => objectOf catalog nested value schema
  | value => .error (.error (.conversion value.kindName schema.name))

theorem parts_eq_map (values : List Value) :
    parts catalog values = values.map fun value => ⟨value, toObject catalog value⟩ := by
  induction values with
  | nil => rfl
  | cons value values ih => rw [parts, ih, List.map_cons]

theorem namedParts_eq_map (fields : List (String × Value)) :
    namedParts catalog fields =
      fields.map (Prod.map id fun value => ⟨value, toObject catalog value⟩) := by
  induction fields with
  | nil => rfl
  | cons field fields ih =>
    rw [namedParts, ih]
    rfl

/-- The conversion to objects is a solution of its recursion. -/
theorem level_toObject (catalog : Catalog) :
    level catalog (toObject catalog) = toObject catalog := by
  funext value schema
  cases value with
  | row values => simp only [level, objectOf, fieldOf?, toObject, parts_eq_map, List.getElem?_map]
  | record own values =>
    simp only [level, objectOf, fieldOf?, named?, toObject, parts_eq_map, List.zip_map_right,
      List.find?_map, Option.map_map]
    rfl
  | object typeName fields =>
    simp only [level, objectOf, fieldOf?, named?, toObject, namedParts_eq_map,
      List.find?_map, Option.map_map]
    rfl
  | _ => rfl

end RowProjection.Value
