import RowProjection.Proofs.Json.Completeness
import RowProjection.Proofs.Target.JsonObject
import RowProjection.Proofs.Target.Progress

/-! Writes that fail in the middle of a row. Three of the targets are left as they were; a JSON
object keeps the name that was written before the value was converted, and its text is no JSON any
more, whatever is written behind it. -/

namespace RowProjection

open Json (Source)

namespace Json.Source

/-- A member without a value, and so with nothing behind its name. -/
def MemberText.IsBare (entry : MemberText) : Prop :=
  entry.token = []

/-- A member is bare, or its value is read. -/
def MemberText.IsBareOrRead (entry : MemberText) : Prop :=
  entry.IsBare ∨ ∃ source, Source.Reads entry.token source

variable {entry : MemberText} {entries : List MemberText} {steps : Nat}

theorem readValue_cases (entries : List MemberText) (rest : List Char)
    (bareOrRead : entry.IsBareOrRead) (enough : entry.token.length ≤ steps) :
    readValue steps (entry.token ++ (moreEntries entries ++ rest)) = none ∨
      ¬ entry.IsBare ∧ ∃ source, readValue steps (entry.token ++ (moreEntries entries ++ rest)) =
        some (source, moreEntries entries ++ rest) := by
  by_cases bare : entry.token = []
  · left
    rw [bare, List.nil_append]
    cases entries with
    | nil => exact readValue_eq_none (by decide) rfl
    | cons entry entries => exact readValue_eq_none (by decide) rfl
  · obtain empty | ⟨source, reads⟩ := bareOrRead
    · exact absurd empty bare
    · exact .inr ⟨bare, source, reads steps _ enough (ends_moreEntries entries rest)⟩

theorem readMembers_eq_none (rest : List Char) (each : ∀ entry ∈ entries, entry.IsBareOrRead)
    (bare : ∃ entry ∈ entries, entry.IsBare) (enough : (moreEntries entries).length ≤ steps) :
    readMembers steps (moreEntries entries ++ rest) = none := by
  induction entries generalizing steps with
  | nil =>
    obtain ⟨entry, member, _⟩ := bare
    cases member
  | cons entry entries ih =>
    rw [length_moreEntries_cons] at enough
    cases steps with
    | zero => rfl
    | succ steps =>
      obtain ⟨first, others⟩ := List.forall_mem_cons.mp each
      have fits : entry.token.length ≤ steps := by omega
      rw [moreEntries, List.cons_append, List.append_assoc,
        readMembers_comma steps (readKey_entry entry _)]
      rcases readValue_cases entries rest first fits with none | ⟨some, source, value⟩
      · rw [none, Option.bind_none]
      · have behind := (List.or_exists_of_exists_mem_cons bare).resolve_left some
        rw [value, Option.bind_some, ih others behind (by omega), Option.map_none]

/-- An object with a bare member is not read. -/
theorem read?_eq_none (each : ∀ entry ∈ entries, entry.IsBareOrRead)
    (bare : ∃ entry ∈ entries, entry.IsBare) :
    read? ('\x7b' :: (openText entries ++ ['\x7d'])) = none := by
  cases entries with
  | nil =>
    obtain ⟨entry, member, _⟩ := bare
    cases member
  | cons entry entries =>
    obtain ⟨first, others⟩ := List.forall_mem_cons.mp each
    have unread : ∀ steps, (entry.text ++ moreEntries entries).length ≤ steps →
        readValue (steps + 1) ('\x7b' :: (entry.text ++ moreEntries entries)) = none := by
      intro steps enough
      rw [MemberText.text, List.length_append, List.length_append, List.length_cons] at enough
      have fits : entry.token.length ≤ steps := by omega
      have valueCases := readValue_cases entries [] first fits
      rw [List.append_nil] at valueCases
      rw [readValue_brace steps (readKey_entry entry _)]
      rcases valueCases with none | ⟨some, source, value⟩
      · rw [none, Option.bind_none]
      · have behind := (List.or_exists_of_exists_mem_cons bare).resolve_left some
        have members := readMembers_eq_none [] others behind (by omega : _ ≤ steps)
        rw [List.append_nil] at members
        rw [value, Option.bind_some, members, Option.map_none]
    rw [read?, openText_close, unread _ (by simp)]
    rfl

/-- Every member makes the text longer. -/
theorem length_openText_lt (before after : List MemberText) (entry : MemberText) :
    (openText (before ++ after)).length < (openText (before ++ entry :: after)).length := by
  have length : ∀ entries, (openText entries).length =
      (entries.flatMap fun entry => ',' :: entry.text).length - 1 := by
    intro entries
    cases entries with
    | nil => rfl
    | cons entry entries => simp [openText]
  have some : 0 < entry.text.length := Nat.succ_pos _
  rw [length, length, List.flatMap_append, List.flatMap_append, List.flatMap_cons,
    List.length_append, List.length_append, List.length_append, List.length_cons]
  omega

end Json.Source

namespace JsonTarget

open Json.Source (MemberText)

/-- The member that a write leaves, bare if it fails. -/
def left (name : String) (form : JsonForm) (value : Value) : MemberText :=
  match form.token value with
  | .ok token => ⟨name, token⟩
  | .error _ => ⟨name, []⟩

theorem write_left (entries : List MemberText) (name : String) (form : JsonForm) (value : Value) :
    ((holding entries).write ⟨some name, .json form⟩ value).2 =
      holding (entries ++ [left name form value]) := by
  rw [write_holding, left]
  cases form.token value <;> rfl

theorem isBare_left {entries : List MemberText} {name : String} {form : JsonForm} {value : Value}
    {failure : Failure}
    (failed : ((holding entries).write ⟨some name, .json form⟩ value).1 = .error failure) :
    (left name form value).IsBare := by
  rw [write_holding] at failed
  rw [left]
  cases converted : form.token value with
  | ok token =>
    rw [converted] at failed
    cases failed
  | error failure => rfl

theorem isBareOrRead_left {name : String} {type : DataType} {form : JsonForm} {value : Value}
    (known : JsonForm.ofFamily? type.family = some form) :
    (left name form value).IsBareOrRead := by
  rw [left]
  split
  · next token made =>
    obtain ⟨source, reads, _⟩ := JsonForm.exists_readBack known made
    exact .inr ⟨source, reads⟩
  · exact .inl rfl

end JsonTarget

namespace AnyTarget

open Json.Source JsonTarget

/-- The injectors that a target makes. -/
def Makes (origin : AnyTarget) (injector : Injector) : Prop :=
  ∃ path type, Target.injector origin path type = .ok injector

/-- The states of a row: its start, and what writes make of it, whether they succeed or fail. -/
inductive Reached (origin : AnyTarget) : AnyTarget → Prop where
  | start : Reached origin (Target.start origin)
  | write {target : AnyTarget} {injector : Injector} (before : Reached origin target)
      (makes : origin.Makes injector) (value : Value) :
      Reached origin (Target.write target injector value).2

/-- The target after further writes, whether they succeed or fail. -/
def writeAll (target : AnyTarget) (writes : List (Injector × Value)) : AnyTarget :=
  writes.foldl (fun target write => (Target.write target write.1 write.2).2) target

variable {origin target : AnyTarget} {object : JsonTarget} {injector : Injector} {value : Value}
  {failure : Failure}

theorem Reached.inProgress (reached : Reached origin target) : InProgress origin target := by
  induction reached with
  | start => exact inProgress_start origin
  | write _ makes value ih =>
    obtain ⟨path, type, made⟩ := makes
    exact (ih.write made value).2

/-- An injector of a JSON object writes to some member, whatever members there are. -/
theorem exists_left (makes : (json object).Makes injector) (value : Value) :
    ∃ entry : MemberText, entry.IsBareOrRead ∧ ∀ entries,
      (Target.write (json (holding entries)) injector value).2 =
          json (holding (entries ++ [entry])) ∧
        ∀ failure, (Target.write (json (holding entries)) injector value).1 = .error failure →
          entry.IsBare := by
  obtain ⟨path, type, made⟩ := makes
  obtain ⟨name, form, _, known, rfl⟩ := JsonTarget.injector_eq_ok made
  refine ⟨left name form value, isBareOrRead_left known, fun entries => ⟨?_, ?_⟩⟩
  · exact congrArg json (write_left entries name form value)
  · intro failure failed
    exact isBare_left failed

theorem Reached.exists_holding (reached : Reached (json object) target) :
    ∃ entries : List MemberText, (∀ entry ∈ entries, entry.IsBareOrRead) ∧
      target = json (holding entries) := by
  induction reached with
  | start => exact ⟨[], by simp, rfl⟩
  | write _ makes value ih =>
    obtain ⟨entries, each, rfl⟩ := ih
    obtain ⟨entry, bareOrRead, written⟩ := exists_left makes value
    exact ⟨entries ++ [entry],
      List.forall_mem_append.mpr ⟨each, List.forall_mem_singleton.mpr bareOrRead⟩,
      (written entries).1⟩

/-- Further writes leave the same members whatever was written before. -/
theorem exists_left_all {writes : List (Injector × Value)}
    (makes : ∀ write ∈ writes, (json object).Makes write.1) :
    ∃ more : List MemberText, (∀ entry ∈ more, entry.IsBareOrRead) ∧
      ∀ entries, (json (holding entries)).writeAll writes = json (holding (entries ++ more)) := by
  induction writes with
  | nil => exact ⟨[], by simp, fun entries => by rw [List.append_nil]; rfl⟩
  | cons write writes ih =>
    obtain ⟨first, others⟩ := List.forall_mem_cons.mp makes
    obtain ⟨entry, bareOrRead, written⟩ := exists_left first write.2
    obtain ⟨more, each, behind⟩ := ih others
    refine ⟨entry :: more, List.forall_mem_cons.mpr ⟨bareOrRead, each⟩, fun entries => ?_⟩
    change (Target.write (json (holding entries)) write.1 write.2).2.writeAll writes = _
    rw [(written entries).1, behind, List.append_assoc, List.singleton_append]

/-- Three of the targets are not changed by a write that fails. -/
theorem write_failed (progress : InProgress origin target)
    (notJson : ∀ object, origin ≠ json object) (makes : origin.Makes injector)
    (failed : (Target.write target injector value).1 = .error failure) :
    (Target.write target injector value).2 = target := by
  obtain ⟨path, type, made⟩ := makes
  rcases progress.write_cases made value with
    ⟨next, written, _⟩ | ⟨other, next, written, _, _, same | ⟨object, json⟩⟩
  · rw [written] at failed
    cases failed
  · rw [written]
    exact same
  · exact absurd json (notJson object)

/-- An object with a bare member is no JSON, and is longer than without it. -/
theorem conclude_bare {before after : List MemberText} {entry : MemberText}
    (each : ∀ other ∈ before ++ entry :: after, other.IsBareOrRead) (bare : entry.IsBare) :
    ∃ bytes text,
      (Target.conclude (json (holding (before ++ entry :: after)))).1 = .ok (.bytes bytes) ∧
        Text.Utf8.decode? bytes = some text ∧ (∀ source, ¬ Source.IsTextOf source text.toList) ∧
        (Target.conclude (json (holding (before ++ after)))).1 ≠ .ok (.bytes bytes) := by
  refine ⟨_, _, JsonTarget.conclude_holding _, Text.Utf8.decode?_bytes _, ?_, ?_⟩
  · intro source isText
    rw [String.toList_ofList, isTextOf_iff, read?_eq_none each ⟨entry, by simp, bare⟩] at isText
    cases isText
  · intro same
    have decoded := congrArg Text.Utf8.decode? (Value.bytes.inj (Except.ok.inj same))
    rw [Text.Utf8.decode?_bytes, Text.Utf8.decode?_bytes] at decoded
    have texts := String.ofList_injective (Option.some.inj decoded)
    have shorter := length_openText_lt before after entry
    rw [List.append_cancel_right (List.cons.inj texts).2] at shorter
    exact Nat.lt_irrefl _ shorter

/-- A write that fails in the middle of a row leaves a primitive, a record or an object as it was.
The text of a JSON object is no JSON any more, and is another one than without the write. -/
theorem failed_write (reached : Reached origin target) (makes : origin.Makes injector)
    (failed : (Target.write target injector value).1 = .error failure) :
    ((∀ object, origin ≠ json object) → (Target.write target injector value).2 = target) ∧
      ∀ object, origin = json object → ∀ later, (∀ write ∈ later, origin.Makes write.1) →
        ∃ bytes text,
          (Target.conclude ((Target.write target injector value).2.writeAll later)).1 =
              .ok (.bytes bytes) ∧
            Text.Utf8.decode? bytes = some text ∧
            (∀ source, ¬ Source.IsTextOf source text.toList) ∧
            (Target.conclude (target.writeAll later)).1 ≠ .ok (.bytes bytes) := by
  constructor
  · intro notJson
    exact write_failed reached.inProgress notJson makes failed
  · rintro object rfl later makesLater
    obtain ⟨before, eachBefore, rfl⟩ := reached.exists_holding
    obtain ⟨entry, bareOrRead, written⟩ := exists_left makes value
    obtain ⟨after, eachAfter, behind⟩ := exists_left_all makesLater
    have bare := (written before).2 failure failed
    have each : ∀ other ∈ before ++ entry :: after, other.IsBareOrRead :=
      List.forall_mem_append.mpr ⟨eachBefore, List.forall_mem_cons.mpr ⟨bareOrRead, eachAfter⟩⟩
    rw [(written before).1, behind, behind, List.append_assoc, List.singleton_append]
    exact conclude_bare each bare

section Totals

def countInjector : Injector :=
  ⟨some "count", .json .tinyInt⟩

def totalInjector : Injector :=
  ⟨some "total", .json .int⟩

private theorem makes_count : (json .new).Makes countInjector :=
  ⟨some "count", .tinyInt, rfl⟩

private theorem count_failed :
    (Target.write (Target.start (json .new)) countInjector (.bigInt 1000)).1 =
      .error (.error (.conversion "BIGINT" "TINYINT")) :=
  rfl

theorem failed_count : (json .new).Makes countInjector ∧
    ∀ later, (∀ write ∈ later, (json .new).Makes write.1) → ∃ bytes text,
      (Target.conclude ((Target.write (Target.start (json .new)) countInjector
        (.bigInt 1000)).2.writeAll later)).1 = .ok (.bytes bytes) ∧
      Text.Utf8.decode? bytes = some text ∧ (∀ source, ¬ Source.IsTextOf source text.toList) ∧
      (Target.conclude ((Target.start (json .new)).writeAll later)).1 ≠ .ok (.bytes bytes) :=
  ⟨makes_count, (failed_write .start makes_count count_failed).2 .new rfl⟩

/-- The name of a count that is out of range stays in front of the total. -/
theorem count_left_in_row :
    (Target.write (Target.start (json .new)) countInjector (.bigInt 1000)).1 =
        .error (.error (.conversion "BIGINT" "TINYINT")) ∧
      (Target.conclude ((Target.write (Target.start (json .new)) countInjector
        (.bigInt 1000)).2.writeAll [(totalInjector, .int 1)])).1 =
          .ok (.bytes (Text.Utf8.bytes "\x7b\"count\":,\"total\":1\x7d")) ∧
      (Target.conclude ((Target.start (json .new)).writeAll [(totalInjector, .int 1)])).1 =
        .ok (.bytes (Text.Utf8.bytes "\x7b\"total\":1\x7d")) ∧
      Source.read? "\x7b\"count\":,\"total\":1\x7d".toList = none :=
  ⟨rfl, rfl, rfl, by decide⟩

end Totals

end AnyTarget

end RowProjection
