import RowProjection.Proofs.Json.ReadBack
import RowProjection.Proofs.Target.Writes
import RowProjection.Proofs.Value.Conversion

/-! The texts of JSON objects. Between the start and the conclusion of a row the text is an open
object of the members written so far; if every write succeeded, the concluded text is read back
with one member for each write. -/

namespace RowProjection

open Json (Source StringPart)

namespace Value

theorem convertTo_varchar {value : Value} (present : value ≠ .null) :
    value.convertTo .varchar = .ok (.varchar value.text) := by
  cases value with
  | null => exact absurd rfl present
  | _ => rfl

end Value

/-- The families of columns whose values are written as their text. -/
def TypeFamily.textual : List TypeFamily :=
  [.decimal, .time, .date, .timestamp, .timestampWithTimeZone, .varchar]

def TypeFamily.integral : List TypeFamily :=
  [.tinyInt, .smallInt, .integer, .bigInt]

/-- How the value of a column is read back. Nothing is said of floats and of untyped columns, but
that null is read as null there as well. -/
inductive ReadBack (type : DataType) : Value → Source → Prop where
  | null {source : Source} (read : Json.ofSource? source = some .null) : ReadBack type .null source
  | text {value : Value} {source : Source} {text : String}
      (textual : type.family ∈ TypeFamily.textual)
      (rendered : value.convertTo .varchar = .ok (.varchar text))
      (read : Json.ofSource? source = some (.string text)) : ReadBack type value source
  | boolean {value : Value} {source : Source} {truth : Bool} (boolean : type.family = .boolean)
      (converted : value.convertTo type = .ok (.boolean truth))
      (read : Json.ofSource? source = some (.boolean truth)) : ReadBack type value source
  | integer {value converted : Value} {source : Source} {number : Int}
      (integral : type.family ∈ TypeFamily.integral)
      (success : value.convertTo type = .ok converted)
      (holds : converted.toInteger? = some number)
      (read : Json.ofSource? source = some (.integer number)) : ReadBack type value source
  | other {value : Value} {source : Source} (other : type.family ∈ [.real, .double, .object])
      (present : value ≠ .null) : ReadBack type value source

namespace JsonForm

variable {value : Value} {token : List Char}

theorem exists_reads_scalarToken (value : Value) :
    ∃ source, Source.Reads (scalarToken value) source := by
  unfold scalarToken
  split
  · next number => exact Source.exists_reads_json .jsonSingle number.bits.toNat (by decide)
  · exact Json.exists_reads _

theorem exists_reads_objectToken (value : Value) :
    ∃ source, Source.Reads (objectToken value) source := by
  unfold objectToken
  split
  · exact Json.exists_reads _
  · exact Json.exists_reads _
  all_goals first | exact exists_reads_scalarToken _ | exact ⟨_, Source.reads_quoted _⟩

theorem ofSource?_parts (text : String) :
    Json.ofSource? (.string (Json.parts text)) = some (.string text) := by
  rw [Json.ofSource?, Json.text?_parts]
  rfl

/-- The token of a value that is not null, by the family of its column. -/
theorem token_eq_ok {type : DataType} {form : JsonForm}
    (known : ofFamily? type.family = some form) (present : value ≠ .null)
    (made : form.token value = .ok token) :
    (type.family ∈ TypeFamily.textual ∧ token = Json.quoted value.text) ∨
      (type.family = .object ∧ token = objectToken value) ∨
      ∃ converted, value.convertTo type = .ok converted ∧ token = scalarToken converted ∧
        (type.family = .boolean ∨ type.family ∈ TypeFamily.integral ∨
          type.family ∈ [.real, .double]) := by
  have notNull : value.isNull = false := by
    cases value with
    | null => exact absurd rfl present
    | _ => rfl
  cases type with
  | decimal | time | date | timestamp | timestampTz | varchar =>
    cases known
    rw [JsonForm.token, notNull] at made
    exact .inl ⟨by decide, (Except.ok.inj made).symm⟩
  | object | custom custom =>
    cases known
    rw [JsonForm.token, notNull] at made
    exact .inr (.inl ⟨rfl, (Except.ok.inj made).symm⟩)
  | json | null => cases known
  | boolean | tinyInt | smallInt | int | bigInt | real | double =>
    cases known
    simp only [JsonForm.token, notNull, Bool.false_eq_true, if_false] at made
    obtain ⟨converted, success, same⟩ := Except.map_eq_ok_iff.mp made
    exact .inr (.inr ⟨converted, success, same.symm, by decide⟩)

theorem boolean_of_convertTo {type : DataType} {converted : Value} (present : value ≠ .null)
    (boolean : type.family = .boolean) (success : value.convertTo type = .ok converted) :
    ∃ truth, converted = .boolean truth := by
  have formed := (Value.convertTo_eq_ok_iff present).mp success
  cases type with
  | boolean =>
    obtain ⟨truth, _, same⟩ := Option.map_eq_some_iff.mp (Except.ok.inj formed)
    exact ⟨truth, same.symm⟩
  | _ => cases boolean

/-- Conversions to integer types answer an integer of 64 bits. -/
theorem integer_of_convertTo {type : DataType} {converted : Value} (present : value ≠ .null)
    (integral : type.family ∈ TypeFamily.integral)
    (success : value.convertTo type = .ok converted) :
    ∃ number, converted.toInteger? = some number ∧
      scalarToken converted = Text.Digits.ofInt number ∧
      Int64.minValue.toInt ≤ number ∧ number < UInt64.size := by
  have formed := (Value.convertTo_eq_ok_iff present).mp success
  have bottom : Int64.minValue.toInt = -2 ^ 63 := rfl
  have size : (UInt64.size : Int) = 2 ^ 64 := rfl
  rw [bottom, size]
  cases type with
  | tinyInt | smallInt | int | bigInt =>
    obtain ⟨content, _, rfl⟩ := Option.map_eq_some_iff.mp (Except.ok.inj formed)
    have low := content.le_toInt
    have high := content.toInt_lt
    exact ⟨content.toInt, rfl, rfl, by omega, by omega⟩
  | _ => simp [DataType.family, TypeFamily.integral] at integral

/-- The token of a value in its column is read back. -/
theorem exists_readBack {type : DataType} {form : JsonForm}
    (known : ofFamily? type.family = some form) (made : form.token value = .ok token) :
    ∃ source, Source.Reads token source ∧ ReadBack type value source := by
  by_cases present : value = .null
  · subst present
    cases made
    exact ⟨.null, Source.reads_null, .null rfl⟩
  · rcases token_eq_ok known present made with ⟨textual, rfl⟩ | ⟨object, rfl⟩ |
      ⟨converted, success, rfl, boolean | integral | float⟩
    · exact ⟨_, Source.reads_quoted value.text,
        .text textual (Value.convertTo_varchar present) (ofSource?_parts value.text)⟩
    · obtain ⟨source, reads⟩ := exists_reads_objectToken value
      exact ⟨source, reads, .other (by simp [object]) present⟩
    · obtain ⟨truth, rfl⟩ := boolean_of_convertTo present boolean success
      exact ⟨_, Source.reads_boolean truth, .boolean boolean success rfl⟩
    · obtain ⟨number, holds, spelled, least, most⟩ := integer_of_convertTo present integral success
      rw [spelled]
      exact ⟨_, Source.reads_number (Source.spells_ofInt number),
        .integer integral success holds (Json.ofNumber?_ofInt least most)⟩
    · obtain ⟨source, reads⟩ := exists_reads_scalarToken converted
      have other : type.family ∈ [.real, .double] ++ [.object] := List.mem_append_left _ float
      exact ⟨source, reads, .other other present⟩

end JsonForm

namespace Json.Source

/-- The members of an object that is still open. -/
def openText : List MemberText → List Char
  | [] => []
  | first :: others => first.text ++ others.flatMap fun entry => ',' :: entry.text

theorem moreEntries_eq (entries : List MemberText) :
    moreEntries entries = (entries.flatMap fun entry => ',' :: entry.text) ++ ['\x7d'] := by
  induction entries with
  | nil => rfl
  | cons entry entries ih =>
    rw [moreEntries, ih, List.flatMap_cons, List.cons_append, List.cons_append, List.append_assoc]

theorem openText_close (first : MemberText) (others : List MemberText) :
    openText (first :: others) ++ ['\x7d'] = first.text ++ moreEntries others := by
  rw [openText, moreEntries_eq, List.append_assoc]

theorem reads_openText {entries : List MemberText} {members : List (List StringPart × Source)}
    (reads : List.Forall₂ MemberText.Reads entries members) :
    Reads ('\x7b' :: (openText entries ++ ['\x7d'])) (.object members) := by
  cases reads with
  | nil => exact reads_empty_object
  | cons first others =>
    rw [openText_close]
    exact reads_object first others

end Json.Source

namespace JsonTarget

open Json.Source (MemberText)

/-- A row in progress with these members. -/
def holding (entries : List MemberText) : JsonTarget :=
  ⟨.accumulating, '\x7b' :: Source.openText entries, !entries.isEmpty⟩

/-- A write adds a member. -/
theorem write_holding (entries : List MemberText) (name : String) (form : JsonForm)
    (value : Value) :
    (holding entries).write ⟨some name, .json form⟩ value =
      match form.token value with
      | .ok token => (.ok (), holding (entries ++ [⟨name, token⟩]))
      | .error failure => (.error failure, holding (entries ++ [⟨name, []⟩])) := by
  have written : ∀ token, JsonTarget.mk .accumulating ('\x7b' :: Source.openText entries ++
      (if !entries.isEmpty then [','] else []) ++ Json.quoted name ++ [':'] ++ token) true =
        holding (entries ++ [⟨name, token⟩]) := by
    intro token
    cases entries <;> simp [holding, Source.openText, MemberText.text]
  rw [holding, write_accumulating]
  cases form.token value with
  | ok token => exact Prod.ext rfl (written token)
  | error failure =>
    have bare := written []
    rw [List.append_nil] at bare
    exact Prod.ext rfl bare

theorem conclude_holding (entries : List MemberText) :
    (holding entries).conclude.1 = .ok (.bytes (Text.Utf8.bytes
      (String.ofList ('\x7b' :: (Source.openText entries ++ ['\x7d']))))) :=
  rfl

/-- A write of a value to the field at a path, in a column of this type. -/
structure FieldWrite where
  path : String
  type : DataType
  value : Value

/-- Successful writes from one state of a row to another, each through its own injector. -/
inductive Writes : JsonTarget → List FieldWrite → JsonTarget → Prop where
  | none {target : JsonTarget} : Writes target [] target
  | next {target written final : JsonTarget} {field : FieldWrite} {fields : List FieldWrite}
      {injector : Injector} (made : JsonTarget.injector (some field.path) field.type = .ok injector)
      (success : target.write injector field.value = (.ok (), written))
      (others : Writes written fields final) : Writes target (field :: fields) final

/-- A member has the path of a write, and its value is read back. -/
def FieldWrite.IsReadFrom (field : FieldWrite) (member : List StringPart × Source) : Prop :=
  StringPart.text? member.1 = some field.path ∧ ReadBack field.type field.value member.2

/-- Successful writes add one member each, and what is written is read back. -/
theorem Writes.holding {entries : List MemberText} {fields : List FieldWrite}
    {final : JsonTarget} (writes : Writes (holding entries) fields final) :
    ∃ more members, final = JsonTarget.holding (entries ++ more) ∧
      List.Forall₂ MemberText.Reads more members ∧
      List.Forall₂ FieldWrite.IsReadFrom fields members := by
  generalize start : JsonTarget.holding entries = target at writes
  induction writes generalizing entries with
  | none =>
    subst start
    exact ⟨[], [], by rw [List.append_nil], .nil, .nil⟩
  | @next target written final field fields injector made success others ih =>
    subst start
    obtain ⟨name, form, same, known, rfl⟩ := injector_eq_ok made
    cases same
    rw [write_holding] at success
    split at success
    · next token converted =>
      obtain ⟨source, reads, back⟩ := JsonForm.exists_readBack known converted
      obtain ⟨more, members, rfl, readMembers, readFields⟩ := ih (Prod.mk.inj success).2
      refine ⟨⟨field.path, token⟩ :: more, (Json.parts field.path, source) :: members, ?_,
        .cons ⟨rfl, reads⟩ readMembers, .cons ⟨Json.text?_parts field.path, back⟩ readFields⟩
      rw [List.append_assoc, List.singleton_append]
    · cases success

/-- The text of a row of successful writes is one JSON object, with one member for each write, in
their order: its name is the path, and its value is read back. -/
theorem conclude_writes {origin final : JsonTarget} {fields : List FieldWrite}
    (writes : Writes origin.start fields final) :
    ∃ bytes text members, final.conclude.1 = .ok (.bytes bytes) ∧
      Text.Utf8.decode? bytes = some text ∧ (Source.object members).IsTextOf text.toList ∧
      Source.read? text.toList = some (.object members) ∧
      List.Forall₂ FieldWrite.IsReadFrom fields members := by
  have start : origin.start = holding [] := rfl
  rw [start] at writes
  obtain ⟨entries, members, rfl, readMembers, readFields⟩ := writes.holding
  have read := Source.read?_of_reads (Source.reads_openText readMembers)
  rw [List.nil_append]
  refine ⟨_, String.ofList ('\x7b' :: (Source.openText entries ++ ['\x7d'])), members,
    conclude_holding entries, Text.Utf8.decode?_bytes _, ?_, ?_, readFields⟩
  · rw [String.toList_ofList]
    exact Source.isTextOf_of_read? read
  · rw [String.toList_ofList]
    exact read

section Labels

/-- A path that is written twice, and one with a quote and a line break. -/
def labels : List FieldWrite :=
  [⟨"id", .bigInt, .int 7⟩, ⟨"id", .decimal, .null⟩, ⟨"\"\n", .varchar, .varchar "\u00fc"⟩]

def labelEntries : List MemberText :=
  [⟨"id", ['7']⟩, ⟨"id", Json.null.chars⟩, ⟨"\"\n", Json.quoted "\u00fc"⟩]

private theorem writes_labels : Writes new.start labels (holding labelEntries) :=
  .next rfl rfl (.next rfl rfl (.next rfl rfl .none))

theorem conclude_labels : Writes new.start labels (holding labelEntries) ∧
    ∃ bytes text members, (holding labelEntries).conclude.1 = .ok (.bytes bytes) ∧
      Text.Utf8.decode? bytes = some text ∧ (Source.object members).IsTextOf text.toList ∧
      Source.read? text.toList = some (.object members) ∧
      List.Forall₂ FieldWrite.IsReadFrom labels members :=
  ⟨writes_labels, conclude_writes writes_labels⟩

end Labels

end JsonTarget

end RowProjection
