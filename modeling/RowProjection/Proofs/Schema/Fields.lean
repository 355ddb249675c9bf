import Mathlib.Data.List.Nodup
import RowProjection.Proofs.Outcome
import RowProjection.Schema.Basic

namespace RowProjection

variable {schema : Schema} {name : String} {field : SchemaField} {index : Nat}
  {fields declared : List SchemaField}

namespace Schema

/-- A position is that of the first field of a name. -/
structure IsFirst (schema : Schema) (name : String) (field : SchemaField) (index : Nat) :
    Prop where
  here : schema.fields[index]? = some field
  named : field.name = name
  first : ∀ earlier other, earlier < index → schema.fields[earlier]? = some other →
    other.name ≠ name

theorem field?_eq_some_iff :
    schema.field? name = some (field, index) ↔ schema.IsFirst name field index := by
  rw [field?, List.find?_eq_some_iff_getElem]
  constructor
  · rintro ⟨named, place, inside, same, before⟩
    rw [List.getElem_zipIdx] at same
    cases same
    rw [List.length_zipIdx] at inside
    refine ⟨by simp, by simpa using named, fun earlier other below otherAt => ?_⟩
    have different := before earlier (by omega)
    obtain ⟨_, rfl⟩ := List.getElem?_eq_some_iff.mp otherAt
    simpa using different
  · rintro ⟨here, named, first⟩
    obtain ⟨inside, rfl⟩ := List.getElem?_eq_some_iff.mp here
    refine ⟨by simpa using named, index, by simpa using inside, by simp, fun earlier below => ?_⟩
    have different := first earlier _ below (List.getElem?_eq_getElem (by omega))
    simpa using different

theorem hasField_iff : schema.hasField name = true ↔ name ∈ schema.fields.map (·.name) := by
  rw [hasField, field?, List.find?_isSome, List.mem_map]
  constructor
  · rintro ⟨⟨field, index⟩, member, named⟩
    exact ⟨field, List.fst_mem_of_mem_zipIdx member, by simpa using named⟩
  · rintro ⟨field, member, rfl⟩
    obtain ⟨index, fieldAt⟩ := List.mem_iff_getElem?.mp member
    exact ⟨(field, index), List.mem_zipIdx_iff_getElem?.mpr fieldAt, decide_eq_true rfl⟩

/-- Among distinct names a field is found at its own position. -/
theorem field?_of_distinct (distinct : (schema.fields.map (·.name)).Nodup)
    (fieldAt : schema.fields[index]? = some field) :
    schema.field? field.name = some (field, index) := by
  refine field?_eq_some_iff.mpr ⟨fieldAt, rfl, fun earlier other before otherAt named => ?_⟩
  have inside : earlier < (schema.fields.map (·.name)).length := by
    simpa using (List.getElem?_eq_some_iff.mp otherAt).1
  have same : earlier = index :=
    (List.getElem?_inj inside distinct).mp (by simp [fieldAt, otherAt, named])
  omega

end Schema

/-- A call that declares a field: of a kind, of a nested record, of the type of a column, or ready
made. -/
inductive FieldDeclaration where
  | scalar (name : String) (kind : FieldKind)
  | composite (name reference : String)
  | column (name : String) (type : DataType)
  | ready (field : SchemaField)

/-- The field that is declared. Some types have no fields. -/
def FieldDeclaration.toField : FieldDeclaration → Except Error SchemaField
  | scalar name kind => .ok (.scalar name kind)
  | composite name reference => .ok (.composite name reference)
  | column name type => SchemaField.ofDataType name type
  | ready field => .ok field

namespace Schema

/-- Declares a field behind those that are declared already. -/
def declareNext (fields : List SchemaField) (call : FieldDeclaration) :
    Except Error (List SchemaField) :=
  call.toField.map fun field => field.declare fields

/-- The schema that these calls build, one after another. -/
def ofCalls (name : String) (calls : List FieldDeclaration) : Except Error Schema :=
  (calls.foldlM declareNext []).map (ofFields name)

end Schema

namespace SchemaField

/-- A known name keeps its place, a new one goes behind the others. -/
theorem map_name_declare (field : SchemaField) (fields : List SchemaField) :
    (field.declare fields).map (·.name) =
      if field.name ∈ fields.map (·.name) then fields.map (·.name)
      else fields.map (·.name) ++ [field.name] := by
  induction fields with
  | nil => rfl
  | cons head fields ih =>
    rw [declare]
    by_cases same : head.name = field.name
    · simp [same]
    · rw [if_neg same, List.map_cons, ih]
      by_cases known : field.name ∈ fields.map (·.name)
      · simp [known]
      · rw [if_neg known, if_neg (by simp [known, Ne.symm same])]
        rfl

/-- Of distinct names only the one that is declared gets another field. -/
theorem eq_or_mem_of_mem_declare {other : SchemaField} (distinct : (fields.map (·.name)).Nodup)
    (member : other ∈ field.declare fields) :
    other = field ∨ other ∈ fields ∧ other.name ≠ field.name := by
  induction fields with
  | nil => exact .inl (List.mem_singleton.mp member)
  | cons head fields ih =>
    rw [List.map_cons, List.nodup_cons] at distinct
    rw [declare] at member
    split at member
    · next same =>
      rcases List.mem_cons.mp member with here | behind
      · exact .inl here
      · refine .inr ⟨List.mem_cons_of_mem _ behind, fun named => distinct.1 ?_⟩
        rw [same, ← named]
        exact List.mem_map_of_mem behind
    · next different =>
      rcases List.mem_cons.mp member with rfl | behind
      · exact .inr ⟨List.mem_cons_self .., different⟩
      · exact (ih distinct.2 behind).imp_right fun ⟨kept, apart⟩ =>
          ⟨List.mem_cons_of_mem _ kept, apart⟩

/-- No later declaration has the name of the field. -/
def IsLastOf (field : SchemaField) (declared : List SchemaField) : Prop :=
  ∃ before after, declared = before ++ field :: after ∧ ∀ other ∈ after, other.name ≠ field.name

theorem IsLastOf.append {other : SchemaField} (last : field.IsLastOf declared)
    (apart : field.name ≠ other.name) : field.IsLastOf (declared ++ [other]) := by
  obtain ⟨before, after, rfl, behind⟩ := last
  refine ⟨before, after ++ [other], by simp, List.forall_mem_append.mpr ⟨behind, ?_⟩⟩
  exact List.forall_mem_singleton.mpr (Ne.symm apart)

end SchemaField

namespace Schema

/-- Fields that are in place after some declarations. -/
structure AreInPlace (declared fields : List SchemaField) : Prop where
  distinct : (fields.map (·.name)).Nodup
  order : fields.map (·.name) = (declared.map (·.name)).eraseDups
  latest : ∀ field ∈ fields, field.IsLastOf declared

theorem AreInPlace.declare (inPlace : AreInPlace declared fields) (field : SchemaField) :
    AreInPlace (declared ++ [field]) (field.declare fields) := by
  have known : field.name ∈ fields.map (·.name) ↔ field.name ∈ declared.map (·.name) := by
    rw [inPlace.order, List.mem_eraseDups]
  refine ⟨?_, ?_, fun other member => ?_⟩
  · rw [SchemaField.map_name_declare]
    split
    · exact inPlace.distinct
    · next fresh =>
      refine List.nodup_append.mpr ⟨inPlace.distinct, List.nodup_singleton _, ?_⟩
      rintro name member _ here rfl
      exact fresh (List.mem_singleton.mp here ▸ member)
  · rw [SchemaField.map_name_declare, List.map_append, List.eraseDups_append, ← inPlace.order]
    by_cases here : field.name ∈ fields.map (·.name)
    · rw [if_pos here, List.map_singleton, List.removeAll,
        List.filter_cons_of_neg (by simpa using known.mp here)]
      simp
    · rw [if_neg here, List.map_singleton, List.removeAll,
        List.filter_cons_of_pos (by simpa using mt known.mpr here)]
      rfl
  · rcases SchemaField.eq_or_mem_of_mem_declare inPlace.distinct member with rfl | ⟨kept, apart⟩
    · exact ⟨declared, [], rfl, by simp⟩
    · exact (inPlace.latest other kept).append apart

theorem AreInPlace.foldl (inPlace : AreInPlace declared fields) (later : List SchemaField) :
    AreInPlace (declared ++ later)
      (later.foldl (fun fields field => field.declare fields) fields) := by
  induction later generalizing declared fields with
  | nil => simpa using inPlace
  | cons field later ih => simpa using ih (inPlace.declare field)

theorem areInPlace_nil : AreInPlace [] [] :=
  ⟨.nil, rfl, by simp⟩

/-- Calls that succeed have declared a field each. -/
theorem exists_declared_of_foldlM {calls : List FieldDeclaration}
    (built : calls.foldlM declareNext fields = .ok declared) :
    ∃ later, List.Forall₂ (fun call field => call.toField = .ok field) calls later ∧
      declared = later.foldl (fun fields field => field.declare fields) fields := by
  induction calls generalizing fields with
  | nil => exact ⟨[], .nil, (Except.ok.inj built).symm⟩
  | cons call calls ih =>
    rw [List.foldlM_cons] at built
    obtain ⟨next, step, built⟩ := Except.bind_eq_ok_iff.mp built
    obtain ⟨field, made, rfl⟩ := Except.map_eq_ok_iff.mp step
    obtain ⟨later, each, rfl⟩ := ih built
    exact ⟨field :: later, .cons made each, rfl⟩

/-- Calls on a builder that all succeed declare a field each. The schema that they build has each
declared name once, in the order of the first declarations, and with the field of the last one. So
each field is found under its name at its own position, and nothing else is found. -/
theorem fields_of_calls (name : String) (calls : List FieldDeclaration) (schema : Schema)
    (built : ofCalls name calls = .ok schema) :
    ∃ declared, List.Forall₂ (fun call field => call.toField = .ok field) calls declared ∧
      schema = ofDeclarations name declared ∧
      (schema.fields.map (·.name)).Nodup ∧
      schema.fields.map (·.name) = (declared.map (·.name)).eraseDups ∧
      (∀ field ∈ schema.fields, field.IsLastOf declared) ∧
      (∀ index field, schema.fields[index]? = some field →
        schema.field? field.name = some (field, index)) ∧
      ∀ other, schema.hasField other = true ↔ other ∈ declared.map (·.name) := by
  obtain ⟨fields, folded, rfl⟩ := Except.map_eq_ok_iff.mp built
  obtain ⟨declared, each, rfl⟩ := exists_declared_of_foldlM folded
  have inPlace := areInPlace_nil.foldl declared
  rw [List.nil_append] at inPlace
  refine ⟨declared, each, rfl, inPlace.distinct, inPlace.order, inPlace.latest,
    fun index field => field?_of_distinct inPlace.distinct, fun other => ?_⟩
  rw [hasField_iff, ofFields, inPlace.order, List.mem_eraseDups]

section Guests

/-- The name and the room of a guest are declared twice, the room once with the type of a column. -/
def guestCalls : List FieldDeclaration :=
  [.scalar "name" .string, .composite "room" "Room", .column "visits" .bigInt,
    .ready (.scalar "name" .arrayOfString), .column "room" (.custom ⟨"Suite", .compact⟩)]

theorem fields_of_guest : ∃ schema, ofCalls "Guest" guestCalls = .ok schema ∧
    (schema.fields.map (·.name)).Nodup ∧ schema.fields.map (·.name) = ["name", "room", "visits"] ∧
    schema.field? "room" = some (.composite "room" "Suite", 1) ∧
    schema.hasField "floor" = false := by
  obtain ⟨schema, built⟩ : ∃ schema, ofCalls "Guest" guestCalls = .ok schema := ⟨_, rfl⟩
  obtain ⟨_, _, _, distinct, _, _, found, _⟩ :=
    fields_of_calls "Guest" guestCalls schema built
  cases built
  exact ⟨_, rfl, distinct, rfl, found 1 _ rfl, rfl⟩

end Guests

end Schema

end RowProjection
