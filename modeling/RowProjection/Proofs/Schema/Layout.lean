import Mathlib.Data.List.Nodup
import RowProjection.Schema.Basic

/-! How the layout of a schema is read. Neither names nor references say how long they are: they end
at the tag of a kind or at the separator in front of the next field. So a layout has one reading if
no character is taken for one of these, and each such character gives layouts with two. -/

namespace RowProjection

namespace Text.Utf8

variable {text left right : String} {char : Char} {byte : UInt8}

theorem bytes_eq_flatMap (text : String) :
    bytes text = text.toList.flatMap String.utf8EncodeChar := by
  rw [bytes, ← String.utf8Encode_toList, List.utf8Encode]
  simp

theorem bytes_injective (same : bytes left = bytes right) : left = right :=
  Option.some.inj (by rw [← decode?_bytes left, same, decode?_bytes])

theorem bytes_append (left right : String) : bytes (left ++ right) = bytes left ++ bytes right := by
  simp [bytes_eq_flatMap]

theorem bytes_singleton (ascii : char.toNat < 128) :
    bytes (String.singleton char) = [UInt8.ofNat char.toNat] := by
  rw [bytes_eq_flatMap, String.toList_singleton, List.flatMap_singleton]
  exact if_pos (Nat.le_of_lt_succ ascii)

/-- An ASCII character is encoded as its number; the bytes of all others are above. -/
theorem byte_of_char (member : byte ∈ String.utf8EncodeChar char) :
    byte.toNat = char.toNat ∨ 128 ≤ byte.toNat := by
  have numbered (number : Nat) : (UInt8.ofNat number).toNat = number % 256 := UInt8.toNat_ofNat' ..
  simp only [String.utf8EncodeChar] at member
  split at member
  · next ascii =>
    rw [List.mem_singleton] at member
    rw [member, numbered]
    exact .inl (Nat.mod_eq_of_lt (by omega))
  · refine .inr ?_
    split at member
    · simp only [List.mem_cons, List.not_mem_nil, or_false] at member
      rcases member with rfl | rfl <;> (rw [numbered]; omega)
    · split at member
      · simp only [List.mem_cons, List.not_mem_nil, or_false] at member
        rcases member with rfl | rfl | rfl <;> (rw [numbered]; omega)
      · simp only [List.mem_cons, List.not_mem_nil, or_false] at member
        rcases member with rfl | rfl | rfl | rfl <;> (rw [numbered]; omega)

theorem le_of_mem_bytes {bound : Nat} (ascii : bound ≤ 128)
    (above : ∀ char ∈ text.toList, bound ≤ char.toNat) (member : byte ∈ bytes text) :
    bound ≤ byte.toNat := by
  rw [bytes_eq_flatMap, List.mem_flatMap] at member
  obtain ⟨char, present, member⟩ := member
  have least := above char present
  rcases byte_of_char member with same | high <;> omega

end Text.Utf8

namespace FieldKind

theorem tag_lt (kind : FieldKind) : kind.tag.toNat < 0x18 :=
  (List.getElem?_eq_some_iff.mp kind.getElem?_tag).1

/-- Every number below the bound is a tag. -/
theorem exists_tag {number : Nat} (small : number < 0x18) :
    ∃ kind : FieldKind, kind.tag = UInt8.ofNat number := by
  have inside : number < all.length := small
  refine ⟨all[number], ?_⟩
  rw [tag, List.Nodup.idxOf_getElem (by decide)]

end FieldKind

namespace Schema

/-- Characters that are neither tags nor the separator. -/
def IsPlain (char : Char) : Prop :=
  0x18 ≤ char.toNat

instance : DecidablePred IsPlain :=
  fun char => inferInstanceAs (Decidable (0x18 ≤ char.toNat))

/-- The bytes behind a name: none, or a tag or the separator first. -/
def EndsName (bytes : List UInt8) : Prop :=
  ∀ byte ∈ bytes.head?, byte.toNat < 0x18

theorem takeWhile_name {text : String} {rest : List UInt8}
    (plain : ∀ char ∈ text.toList, IsPlain char) (ends : EndsName rest) :
    (Text.Utf8.bytes text ++ rest).takeWhile (0x18 ≤ ·.toNat) = Text.Utf8.bytes text := by
  have inside (byte : UInt8) (member : byte ∈ Text.Utf8.bytes text) :
      decide (0x18 ≤ byte.toNat) = true :=
    decide_eq_true (Text.Utf8.le_of_mem_bytes (by decide) plain member)
  rw [List.takeWhile_append_of_pos inside]
  cases rest with
  | nil => simp
  | cons byte rest =>
    have low := ends byte rfl
    rw [List.takeWhile_cons_of_neg (by simpa using low), List.append_nil]

/-- A plain name is told apart from what is behind it. -/
theorem name_of_bytes {left right : String} {leftRest rightRest : List UInt8}
    (leftPlain : ∀ char ∈ left.toList, IsPlain char)
    (rightPlain : ∀ char ∈ right.toList, IsPlain char)
    (leftEnds : EndsName leftRest) (rightEnds : EndsName rightRest)
    (same : Text.Utf8.bytes left ++ leftRest = Text.Utf8.bytes right ++ rightRest) :
    left = right ∧ leftRest = rightRest := by
  have bytes := congrArg (List.takeWhile fun byte => 0x18 ≤ byte.toNat) same
  rw [takeWhile_name leftPlain leftEnds, takeWhile_name rightPlain rightEnds] at bytes
  rw [bytes] at same
  exact ⟨Text.Utf8.bytes_injective bytes, List.append_cancel_left same⟩

end Schema

namespace SchemaField

open Schema (IsPlain EndsName)

/-- A field with plain names that does not refer to the empty one. -/
structure IsOrdinary (field : SchemaField) : Prop where
  name : ∀ char ∈ field.name.toList, IsPlain char
  reference : ∀ reference, field.reference = some reference →
    (∀ char ∈ reference.toList, IsPlain char) ∧ reference ≠ ""

variable {field left right : SchemaField} {leftRest rightRest : List UInt8}

/-- A missing reference is laid out as an empty one. -/
theorem layout_eq (field : SchemaField) : field.layout =
    0 :: (Text.Utf8.bytes field.name ++
      field.kind.tag :: Text.Utf8.bytes (field.reference.getD "")) := by
  rw [layout]
  cases field.reference <;> rfl

theorem IsOrdinary.plain_reference (ordinary : field.IsOrdinary) :
    ∀ char ∈ (field.reference.getD "").toList, IsPlain char := by
  intro char member
  cases referred : field.reference with
  | none => simp [referred] at member
  | some reference =>
    rw [referred] at member
    exact (ordinary.reference reference referred).1 char member

theorem IsOrdinary.reference_eq (leftOrdinary : left.IsOrdinary) (rightOrdinary : right.IsOrdinary)
    (same : left.reference.getD "" = right.reference.getD "") :
    left.reference = right.reference := by
  cases first : left.reference with
  | none =>
    cases second : right.reference with
    | none => rfl
    | some reference =>
      rw [first, second] at same
      exact absurd same.symm (rightOrdinary.reference reference second).2
  | some reference =>
    cases second : right.reference with
    | none =>
      rw [first, second] at same
      exact absurd same (leftOrdinary.reference reference first).2
    | some other =>
      rw [first, second] at same
      exact congrArg some same

/-- An ordinary field is told apart from the fields behind it. -/
theorem field_of_layout (leftOrdinary : left.IsOrdinary) (rightOrdinary : right.IsOrdinary)
    (leftEnds : EndsName leftRest) (rightEnds : EndsName rightRest)
    (same : left.layout ++ leftRest = right.layout ++ rightRest) :
    left = right ∧ leftRest = rightRest := by
  have tagged (kind : FieldKind) (rest : List UInt8) : EndsName (kind.tag :: rest) := by
    intro byte first
    cases first
    exact kind.tag_lt
  simp only [layout_eq, List.cons_append, List.append_assoc, List.cons.injEq, true_and] at same
  obtain ⟨names, same⟩ := Schema.name_of_bytes leftOrdinary.name rightOrdinary.name
    (tagged _ _) (tagged _ _) same
  obtain ⟨tags, same⟩ := List.cons.inj same
  obtain ⟨texts, rests⟩ := Schema.name_of_bytes leftOrdinary.plain_reference
    rightOrdinary.plain_reference leftEnds rightEnds same
  have kinds := FieldKind.tag_injective tags
  have references := leftOrdinary.reference_eq rightOrdinary texts
  obtain ⟨_, _, _⟩ := left
  obtain ⟨_, _, _⟩ := right
  exact ⟨by simp_all, rests⟩

end SchemaField

namespace Schema

variable {left right : List SchemaField} {schema : Schema} {kind : FieldKind} {low : Char}

theorem endsName_fields (fields : List SchemaField) :
    EndsName (fields.flatMap SchemaField.layout) := by
  intro byte first
  cases fields with
  | nil => cases first
  | cons field fields =>
    cases first
    decide

/-- Ordinary fields are read off their layout one after another. -/
theorem fields_of_layout (leftOrdinary : ∀ field ∈ left, field.IsOrdinary)
    (rightOrdinary : ∀ field ∈ right, field.IsOrdinary)
    (same : left.flatMap SchemaField.layout = right.flatMap SchemaField.layout) : left = right := by
  induction left generalizing right with
  | nil =>
    cases right with
    | nil => rfl
    | cons other right => cases same
  | cons field left ih =>
    cases right with
    | nil => cases same
    | cons other right =>
      rw [List.forall_mem_cons] at leftOrdinary rightOrdinary
      rw [List.flatMap_cons, List.flatMap_cons] at same
      obtain ⟨first, rest⟩ := SchemaField.field_of_layout leftOrdinary.1 rightOrdinary.1
        (endsName_fields left) (endsName_fields right) same
      rw [first, ih leftOrdinary.2 rightOrdinary.2 rest]

/-- The name of a schema, and the names and references of its fields. -/
def texts (schema : Schema) : List String :=
  schema.name :: (schema.fields.map (·.name) ++ schema.references)

/-- All texts of a schema are made of such characters. -/
def IsSpelledWith (schema : Schema) (allowed : Char → Prop) : Prop :=
  ∀ text ∈ schema.texts, ∀ char ∈ text.toList, allowed char

-- Only the characters of the texts are gone through, where an inferred instance may try all.
instance {allowed : Char → Prop} [DecidablePred allowed] :
    Decidable (schema.IsSpelledWith allowed) :=
  @List.decidableBAll String (fun text => ∀ char ∈ text.toList, allowed char)
    (fun text => List.decidableBAll allowed text.toList) schema.texts

theorem IsSpelledWith.ordinary (spelled : schema.IsSpelledWith IsPlain)
    (named : "" ∉ schema.references) : ∀ field ∈ schema.fields, field.IsOrdinary := by
  intro field member
  constructor
  · exact spelled field.name (by simp [texts, List.mem_map_of_mem member])
  · intro reference referred
    have among : reference ∈ schema.references :=
      List.mem_filterMap.mpr ⟨field, member, referred⟩
    refine ⟨spelled reference (by simp [texts, among]), ?_⟩
    intro empty
    exact named (empty ▸ among)

/-- Different schemas whose fingerprints are taken of the same bytes. -/
structure SharesLayout (left right : Schema) : Prop where
  distinct : ¬ (left.name = right.name ∧ left.fields = right.fields)
  layout : layout left.name left.fields = layout right.name right.fields
  fingerprint : left.fingerprint = right.fingerprint

/-- A field with a reference that ends in a low character. -/
def referringSchema (kind : FieldKind) (low : Char) : Schema :=
  .ofFields "T" [⟨"a", kind, some ("b" ++ String.singleton low)⟩]

/-- A field with the low character inside its name, and without a reference. -/
def lengthenedSchema (kind : FieldKind) (low : Char) : Schema :=
  .ofFields "T" [⟨"a" ++ String.singleton low ++ "b", kind, none⟩]

/-- The tag stands where the other schema has the character, and the other way round. -/
theorem sharesLayout_lengthened (small : low.toNat < 128)
    (tagged : kind.tag = UInt8.ofNat low.toNat) :
    (referringSchema kind low).SharesLayout (lengthenedSchema kind low) := by
  have same : layout "T" (referringSchema kind low).fields =
      layout "T" (lengthenedSchema kind low).fields := by
    simp only [layout, referringSchema, lengthenedSchema, ofFields, List.flatMap_singleton,
      SchemaField.layout_eq, Option.getD_some, Option.getD_none, Text.Utf8.bytes_append,
      Text.Utf8.bytes_singleton small, tagged, List.append_assoc, List.singleton_append]
    rfl
  refine ⟨?_, same, congrArg Fingerprint.ofBytes same⟩
  intro both
  have references := congrArg (List.map (·.reference)) both.2
  cases references

theorem spelled_referring (kind : FieldKind) (low : Char) :
    (referringSchema kind low).IsSpelledWith fun char => IsPlain char ∨ char = low := by
  simp [IsSpelledWith, texts, referringSchema, ofFields, references, IsPlain]

theorem spelled_lengthened (kind : FieldKind) (low : Char) :
    (lengthenedSchema kind low).IsSpelledWith fun char => IsPlain char ∨ char = low := by
  simp [IsSpelledWith, texts, lengthenedSchema, ofFields, references, IsPlain]

/-- The one schema refers to the empty name, the other to none. -/
theorem sharesLayout_empty :
    (ofFields "T" [⟨"a", .compact, none⟩]).SharesLayout
      (ofFields "T" [⟨"a", .compact, some ""⟩]) := by
  have same : layout "T" [⟨"a", .compact, none⟩] = layout "T" [⟨"a", .compact, some ""⟩] := rfl
  refine ⟨?_, same, congrArg Fingerprint.ofBytes same⟩
  intro both
  cases both.2

/-- A schema with plain texts only that does not refer to the empty name is known by the bytes that
its fingerprint is taken of. Every other character that is allowed gives two schemas that are not,
and so does the empty name. -/
theorem layout_identifies :
    (∀ left right : Schema, left.IsSpelledWith IsPlain → right.IsSpelledWith IsPlain →
      "" ∉ left.references → "" ∉ right.references →
      layout left.name left.fields = layout right.name right.fields →
      left.name = right.name ∧ left.fields = right.fields) ∧
    (∀ low : Char, ¬ IsPlain low → ∃ left right : Schema, left.SharesLayout right ∧
      left.IsSpelledWith (fun char => IsPlain char ∨ char = low) ∧
      right.IsSpelledWith (fun char => IsPlain char ∨ char = low) ∧
      "" ∉ left.references ∧ "" ∉ right.references) ∧
    ∃ left right : Schema, left.SharesLayout right ∧
      left.IsSpelledWith IsPlain ∧ right.IsSpelledWith IsPlain := by
  refine ⟨?_, ?_, _, _, sharesLayout_empty, ?_, ?_⟩
  · intro left right leftSpelled rightSpelled leftNamed rightNamed same
    have leftName := leftSpelled left.name (List.mem_cons_self ..)
    have rightName := rightSpelled right.name (List.mem_cons_self ..)
    obtain ⟨names, same⟩ := name_of_bytes leftName rightName
      (endsName_fields left.fields) (endsName_fields right.fields) same
    exact ⟨names, fields_of_layout (leftSpelled.ordinary leftNamed)
      (rightSpelled.ordinary rightNamed) same⟩
  · intro low isLow
    have small : low.toNat < 0x18 := Nat.lt_of_not_le isLow
    obtain ⟨kind, tagged⟩ := FieldKind.exists_tag small
    refine ⟨_, _, sharesLayout_lengthened (by omega) tagged, spelled_referring kind low,
      spelled_lengthened kind low, ?_, ?_⟩
    · simp [referringSchema, ofFields, references]
    · simp [lengthenedSchema, ofFields, references]
  · simp [IsSpelledWith, texts, ofFields, references, IsPlain]
  · simp [IsSpelledWith, texts, ofFields, references, IsPlain]

section Sizes

def sizeSchema : Schema :=
  .ofDeclarations "Größe" [.scalar "名" .string, .composite "next" "Größe", .scalar "名" .decimal]

/-- The fields as they are declared in the end, with a fingerprint that is not theirs. -/
def relabelledSchema : Schema :=
  ⟨"Größe", [.scalar "名" .decimal, .composite "next" "Größe"], 0⟩

theorem layout_identifies_sizes :
    layout sizeSchema.name sizeSchema.fields =
      layout relabelledSchema.name relabelledSchema.fields ∧
    sizeSchema.fields = relabelledSchema.fields ∧
    ¬ IsPlain '\n' ∧ ∃ left right : Schema, left.SharesLayout right := by
  obtain ⟨identifies, confused, _⟩ := layout_identifies
  have spelled : sizeSchema.IsSpelledWith IsPlain := by decide +kernel
  have relabelled : relabelledSchema.IsSpelledWith IsPlain := by decide +kernel
  have same : layout sizeSchema.name sizeSchema.fields =
      layout relabelledSchema.name relabelledSchema.fields := by
    decide +kernel
  have both :=
    identifies sizeSchema relabelledSchema spelled relabelled (by decide) (by decide) same
  obtain ⟨left, right, shares, _⟩ := confused '\n' (by decide)
  exact ⟨same, both.2, by decide, left, right, shares⟩

end Sizes

end Schema

end RowProjection
