import RowProjection.Json.Source
import RowProjection.Json.Text
import RowProjection.Wire.Word
import RowProjection.Text.Utf8

/-!
Forms of plain data: each gives the JSON form and the binary form of a type, for writing and for
reading. Larger forms are put together from smaller ones, so that both forms of a type are laid
out once.
-/

namespace RowProjection.Descriptor

/-- A reader that does not say why it fails. -/
abbrev ByteScan (α : Type) := Wire.ByteReader Option α

/-- Reads a word of so many bytes. -/
def scanWord (width : Nat) : ByteScan Nat := do
  return Wire.ofLittleEndian (← Wire.takeBytes? width)

/-- The two forms of a type. -/
structure Form (α : Type) where
  json : α → Json
  ofSource? : Json.Source → Option α
  /-- What a missing member of this type stands for. -/
  ifMissing : Option α
  bytes : α → List UInt8
  scan : ByteScan α

namespace Form

/-- A type whose values are those of another type. -/
def via {α β : Type} (form : Form β) (toOther : α → β) (fromOther : β → α) : Form α where
  json value := form.json (toOther value)
  ofSource? source := (form.ofSource? source).map fromOther
  ifMissing := form.ifMissing.map fromOther
  bytes value := form.bytes (toOther value)
  scan := do return fromOther (← form.scan)

/-- Truth values: one byte, zero or one. -/
def boolean : Form Bool where
  json := .boolean
  ofSource?
    | .boolean value => some value
    | _ => none
  ifMissing := none
  bytes value := [if value then 1 else 0]
  scan := do
    match ← scanWord 1 with
    | 0 => return false
    | 1 => return true
    | _ => failure

/-- A number token without sign, fraction and exponent. -/
def natural? : Json.Source → Option Nat
  | .number ⟨false, whole, [], none⟩ => some (Text.Digits.value whole)
  | _ => none

/-- Natural numbers of 32 bits. -/
def word : Form UInt32 where
  json value := .integer value.toNat
  ofSource? source := do
    let number ← natural? source
    if number < UInt32.size then some (UInt32.ofNat number) else none
  ifMissing := none
  bytes value := Wire.littleEndian 4 value.toNat
  scan := do return UInt32.ofNat (← scanWord 4)

/-- Texts: a length of 64 bits and the bytes of the text. -/
def text : Form String where
  json := .string
  ofSource?
    | .string parts => Json.StringPart.text? parts
    | _ => none
  ifMissing := none
  bytes value :=
    let content := Text.Utf8.bytes value
    Wire.littleEndian 8 content.length ++ content
  scan := do
    let content ← Wire.takeBytes? (← scanWord 8)
    Text.Utf8.decode? content

/-- Optional values: null or nothing at all, and in bytes a tag. -/
def option {α : Type} (form : Form α) : Form (Option α) where
  json
    | none => .null
    | some value => form.json value
  ofSource?
    | .null => some none
    | source => (form.ofSource? source).map some
  ifMissing := some none
  bytes
    | none => [0]
    | some value => 1 :: form.bytes value
  scan := do
    match ← scanWord 1 with
    | 0 => return none
    | 1 => return some (← form.scan)
    | _ => failure

/-- Reads so many values. -/
def scanMany {α : Type} (scan : ByteScan α) : Nat → ByteScan (List α)
  | 0 => return []
  | count + 1 => do
    let head ← scan
    let tail ← scanMany scan count
    return head :: tail

/-- Lists: a length of 64 bits and the items. -/
def list {α : Type} (form : Form α) : Form (List α) where
  json items := .array (items.map form.json)
  ofSource?
    | .array items => items.mapM form.ofSource?
    | _ => none
  ifMissing := none
  bytes items := Wire.littleEndian 8 items.length ++ items.flatMap form.bytes
  scan := do scanMany form.scan (← scanWord 8)

end Form

/-- The forms of the members of a record, in order. -/
structure Members (α : Type) where
  json : α → List (String × Json)
  ofMembers? : List (String × Json.Source) → Option α
  ofItems? : List Json.Source → Option (α × List Json.Source)
  bytes : α → List UInt8
  scan : ByteScan α

namespace Members

/-- No members. -/
def nil : Members Unit where
  json _ := []
  ofMembers? _ := some ()
  ofItems? items := some ((), items)
  bytes _ := []
  scan := return ()

/-- Reads the member of a name, which may be missing if its form allows, but not repeated. -/
def member? {α : Type} (name : String) (form : Form α)
    (members : List (String × Json.Source)) : Option α :=
  match members.filter (·.1 = name) with
  | [] => form.ifMissing
  | [(_, source)] => form.ofSource? source
  | _ => none

/-- One member in front of others. -/
def cons {α β : Type} (name : String) (form : Form α) (rest : Members β) : Members (α × β) where
  json value := (name, form.json value.1) :: rest.json value.2
  ofMembers? members := do
    let head ← member? name form members
    let tail ← rest.ofMembers? members
    return (head, tail)
  ofItems?
    | [] => none
    | item :: items => do
      let head ← form.ofSource? item
      let (tail, remaining) ← rest.ofItems? items
      return ((head, tail), remaining)
  bytes value := form.bytes value.1 ++ rest.bytes value.2
  scan := do
    let head ← form.scan
    let tail ← rest.scan
    return (head, tail)

end Members

namespace Form

/-- The names of members, each read as a text. -/
def named? (members : List (List Json.StringPart × Json.Source)) :
    Option (List (String × Json.Source)) :=
  members.mapM fun (key, source) => (Json.StringPart.text? key).map (·, source)

/-- Records: an object with members in any order, others being passed over, or an array of exactly
the members. In bytes the members stand in order. -/
def record {α : Type} (members : Members α) : Form α where
  json value := .object (members.json value)
  ofSource?
    | .object found => (named? found).bind members.ofMembers?
    | .array items => do
      let (value, remaining) ← members.ofItems? items
      if remaining.isEmpty then some value else none
    | _ => none
  ifMissing := none
  bytes := members.bytes
  scan := members.scan

end Form

/-- The forms of one alternative of a type. Writing answers for the values of the alternative
only. -/
structure Alternative (α : Type) where
  name : String
  json? : α → Option Json
  /-- The value of the bare name. -/
  bare? : Option α
  /-- The value of the name with content. -/
  ofContent? : Json.Source → Option α
  bytes? : α → Option (List UInt8)
  scan : ByteScan α

namespace Alternative

/-- An alternative of a single value, written as its name. The name may have null as content. -/
def single {α : Type} [DecidableEq α] (name : String) (value : α) : Alternative α where
  name
  json? other := if other = value then some (.string name) else none
  bare? := some value
  ofContent?
    | .null => some value
    | _ => none
  bytes? other := if other = value then some [] else none
  scan := return value

/-- An alternative with content, written as an object of one member. -/
def content {α β : Type} (name : String) (form : Form β) (wrap : β → α) (content? : α → Option β) :
    Alternative α where
  name
  json? value := (content? value).map fun inner => .object [(name, form.json inner)]
  bare? := none
  ofContent? source := (form.ofSource? source).map wrap
  bytes? value := (content? value).map form.bytes
  scan := do return wrap (← form.scan)

end Alternative

namespace Form

/-- The bytes of a value: the position of its alternative, and its content. -/
def choiceBytes {α : Type} (value : α) (index : Nat) : List (Alternative α) → List UInt8
  | [] => []
  | alternative :: rest =>
    match alternative.bytes? value with
    | some content => Wire.littleEndian 4 index ++ content
    | none => choiceBytes value (index + 1) rest

/-- A choice between alternatives, told by name, and in bytes by position. -/
def choice {α : Type} (alternatives : List (Alternative α)) : Form α where
  json value := (alternatives.findSome? fun alternative => alternative.json? value).getD .null
  ofSource?
    | .string parts => do
      let name ← Json.StringPart.text? parts
      let alternative ← alternatives.find? (·.name = name)
      alternative.bare?
    | .object [(key, source)] => do
      let name ← Json.StringPart.text? key
      let alternative ← alternatives.find? (·.name = name)
      alternative.ofContent? source
    | _ => none
  ifMissing := none
  bytes value := choiceBytes value 0 alternatives
  scan := do
    match alternatives[← scanWord 4]? with
    | some alternative => alternative.scan
    | none => failure

/-- The JSON text of a value. -/
def writeJson {α : Type} (form : Form α) (value : α) : String :=
  (form.json value).text

/-- The value of a JSON text. -/
def readJson? {α : Type} (form : Form α) (text : String) : Option α :=
  (Json.Source.read? text.toList).bind form.ofSource?

/-- The value in front of a byte sequence. -/
def readBytes? {α : Type} (form : Form α) (bytes : List UInt8) : Option α :=
  (form.scan bytes).map (·.1)

end Form

end RowProjection.Descriptor
