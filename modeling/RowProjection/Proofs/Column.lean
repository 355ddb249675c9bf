import RowProjection.Column
import RowProjection.Proofs.Record.PathComposition

namespace RowProjection

namespace EntryPath

variable {name field : String} {side : Side} {path : EntryPath}

theorem isFieldName_iff : isFieldName name.toList = true ↔ "" ∉ FieldPath.names name := by
  have segment (chars : List Char) : (!chars.isEmpty) = true ↔ String.ofList chars ≠ "" := by
    cases chars <;> simp
  simp only [isFieldName, FieldPath.names, List.all_eq_true, segment, ← List.forall_mem_ne',
    List.forall_mem_map]

theorem split_reservedName (side : Side) : split side.reservedName.toList = (side, none) := by
  cases side <;> rfl

theorem split_below (side : Side) (field : List Char) :
    split (side.reservedName.toList ++ '.' :: field) = (side, some field) := by
  cases side <;> rfl

/-- A name is reserved, or that of a field below a reserved one, or it is bare. -/
theorem name_cases (name : String) :
    (∃ side : Side, name = side.reservedName) ∨
      (∃ (side : Side) (field : String), name = side.reservedName ++ "." ++ field) ∨
      split name.toList = (.value, some name.toList) := by
  generalize same : name.toList = chars
  unfold split
  split
  · exact .inl ⟨.key, String.toList_inj.mp same⟩
  · exact .inl ⟨.value, String.toList_inj.mp same⟩
  · next field =>
    refine .inr (.inl ⟨.key, String.ofList field, ?_⟩)
    simp [← String.toList_inj, same, Side.reservedName]
  · next field =>
    refine .inr (.inl ⟨.value, String.ofList field, ?_⟩)
    simp [← String.toList_inj, same, Side.reservedName]
  · exact .inr (.inr rfl)

theorem parse?_reservedName (side : Side) : parse? side.reservedName = some ⟨side, none⟩ := by
  rw [parse?, split_reservedName]

/-- A field that is split off is taken unless one of its segments is empty. -/
theorem parse?_of_split (taken : split name.toList = (side, some field.toList)) :
    parse? name = if "" ∈ FieldPath.names field then none else some ⟨side, some field⟩ := by
  simp only [parse?, taken, isFieldName_iff, String.ofList_toList, ite_not]

theorem parse?_below (side : Side) (field : String) :
    parse? (side.reservedName ++ "." ++ field) =
      if "" ∈ FieldPath.names field then none else some ⟨side, some field⟩ :=
  parse?_of_split (by simpa using split_below side field.toList)

/-- No segment of a reserved name is empty. -/
theorem names_reservedName (side : Side) :
    FieldPath.names side.reservedName = [side.reservedName] := by
  cases side <;> rfl

theorem empty_mem_names_below :
    "" ∈ FieldPath.names (side.reservedName ++ "." ++ field) ↔ "" ∈ FieldPath.names field := by
  rw [FieldPath.names_append, names_reservedName, List.mem_append]
  cases side <;> simp [Side.reservedName]

theorem parse?_eq_none_iff : parse? name = none ↔ "" ∈ FieldPath.names name := by
  rcases name_cases name with ⟨side, rfl⟩ | ⟨side, field, rfl⟩ | bare
  · rw [parse?_reservedName, names_reservedName]
    cases side <;> simp [Side.reservedName]
  · rw [parse?_below, empty_mem_names_below]
    simp
  · rw [parse?_of_split bare]
    simp

theorem parse?_text (named : ∀ field, path.field = some field → "" ∉ FieldPath.names field) :
    parse? path.text = some path := by
  obtain ⟨side, _ | field⟩ := path
  · exact parse?_reservedName side
  · exact (parse?_below side field).trans (if_neg (named field rfl))

/-- A name stands for the place whose text it is, or for the place of the value that it is the bare
name of. -/
theorem text_of_parse? (parsed : parse? name = some path) :
    (∀ field, path.field = some field → "" ∉ FieldPath.names field) ∧
      (path.text = name ∨ path.text = "this." ++ name) := by
  rcases name_cases name with ⟨side, rfl⟩ | ⟨side, field, rfl⟩ | bare
  · rw [parse?_reservedName] at parsed
    cases parsed
    exact ⟨by simp, .inl rfl⟩
  · rw [parse?_below, Option.ite_none_left_eq_some] at parsed
    obtain ⟨named, same⟩ := parsed
    cases same
    exact ⟨fun _ same => Option.some.inj same ▸ named, .inl rfl⟩
  · rw [parse?_of_split bare, Option.ite_none_left_eq_some] at parsed
    obtain ⟨named, same⟩ := parsed
    cases same
    exact ⟨fun _ same => Option.some.inj same ▸ named, .inr rfl⟩

/-- Exactly the names with an empty segment stand for no place. The text of the place that any other
name stands for is the name itself, unless that is bare, and it stands for the same place. And so
does the text of every place that is a whole side or a field without an empty segment, whatever
reserved names the field contains. -/
theorem places_of_names :
    (∀ name, parse? name = none ↔ "" ∈ FieldPath.names name) ∧
    (∀ name path, parse? name = some path →
      parse? path.text = some path ∧ (path.text = name ∨ path.text = "this." ++ name)) ∧
    ∀ path : EntryPath, (∀ field, path.field = some field → "" ∉ FieldPath.names field) →
      parse? path.text = some path := by
  refine ⟨fun name => parse?_eq_none_iff, fun name path parsed => ?_, fun path => parse?_text⟩
  obtain ⟨named, text⟩ := text_of_parse? parsed
  exact ⟨parse?_text named, text⟩

/-- A bare name with a reserved one behind its first point, and a field of the value under the name
that is reserved for keys. -/
theorem places_of_reserved_names :
    (parse? "order.__key" = some ⟨.value, some "order.__key"⟩ ∧
      parse? "this.order.__key" = some ⟨.value, some "order.__key"⟩) ∧
    parse? "this.__key" = some ⟨.value, some "__key"⟩ := by
  obtain ⟨_, again, back⟩ := places_of_names
  have parsed : parse? "order.__key" = some ⟨.value, some "order.__key"⟩ := rfl
  have named : "" ∉ FieldPath.names "__key" := by decide
  exact ⟨⟨parsed, (again _ _ parsed).1⟩, back ⟨.value, some "__key"⟩ (by simpa using named)⟩

end EntryPath

end RowProjection
