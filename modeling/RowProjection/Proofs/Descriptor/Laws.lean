import Mathlib.Data.List.Nodup
import RowProjection.Descriptor.Form
import RowProjection.Proofs.Json.ReadBack
import RowProjection.Proofs.Wire.Reads

namespace RowProjection.Descriptor

open Json (Source parts)
open Wire (ByteReader)

variable {α β : Type}

namespace ByteScan

theorem reads_takeBytes? (bytes : List UInt8) :
    ByteReader.Reads (Wire.takeBytes? bytes.length : ByteScan (List UInt8)) bytes bytes :=
  Wire.takeBytes?_append bytes

theorem reads_word {width number : Nat} (fits : number < 256 ^ width) :
    (scanWord width).Reads (Wire.littleEndian width number) number := by
  have taken := reads_takeBytes? (Wire.littleEndian width number)
  rw [Wire.length_littleEndian] at taken
  exact taken.word fits

end ByteScan

open ByteScan

/-- Of items with distinct keys one stands alone for its key. -/
theorem filter_of_distinct {key : α → String} {items : List α} {item : α}
    (distinct : (items.map key).Nodup) (member : item ∈ items) :
    (items.filter fun other => key other = key item) = [item] := by
  induction items with
  | nil => cases member
  | cons head rest ih =>
    rw [List.map_cons, List.nodup_cons] at distinct
    rcases List.mem_cons.mp member with rfl | member
    · rw [List.filter_cons_of_pos (by simp), List.filter_eq_nil_iff.mpr]
      intro other among same
      exact distinct.1 (List.mem_map.mpr ⟨other, among, of_decide_eq_true same⟩)
    · have other : key head ≠ key item := fun same =>
        distinct.1 (same ▸ List.mem_map_of_mem member)
      rw [List.filter_cons_of_neg (by simpa using other), ih distinct.2 member]

namespace Form

/-- A tree is read as something that stands for a value. -/
def Holds (form : Form α) (tree : Json) (value : α) : Prop :=
  ∃ source, Source.Reads tree.chars source ∧ form.ofSource? source = some value

/-- Values are read back from what is written of them. -/
structure Lawful (form : Form α) : Prop where
  json (value : α) : form.Holds (form.json value) value
  bytes (value : α) (short : (form.bytes value).length < 2 ^ 64) :
    form.scan.Reads (form.bytes value) value

variable {form : Form α}

/-- A value arrives as it was sent: by its JSON text, and by its bytes with others behind them, as
long as a length of 64 bits can count them. -/
structure Ships (form : Form α) (value : α) : Prop where
  json : form.readJson? (form.writeJson value) = some value
  bytes (trailing : List UInt8) (short : (form.bytes value).length < 2 ^ 64) :
    form.readBytes? (form.bytes value ++ trailing) = some value

theorem Lawful.ships (lawful : form.Lawful) (value : α) : form.Ships value where
  json := by
    obtain ⟨source, reads, same⟩ := lawful.json value
    rw [readJson?, writeJson, Json.text, String.toList_ofList, Source.read?_of_reads reads]
    exact same
  bytes trailing short := by
    have read := lawful.bytes value short trailing
    exact congrArg (Option.map Prod.fst) read

theorem lawful_via {form : Form β} {toOther : α → β} {fromOther : β → α} (lawful : form.Lawful)
    (inverse : ∀ value, fromOther (toOther value) = value) :
    (form.via toOther fromOther).Lawful where
  json value := by
    obtain ⟨source, reads, same⟩ := lawful.json (toOther value)
    refine ⟨source, reads, ?_⟩
    exact (congrArg (Option.map fromOther) same).trans (congrArg some (inverse value))
  bytes value short := by
    have read := (lawful.bytes (toOther value) short).map fromOther
    rwa [inverse] at read

theorem lawful_boolean : boolean.Lawful where
  json value := ⟨_, Source.reads_boolean value, rfl⟩
  bytes value _ := by
    cases value with
    | false =>
      have read : (scanWord 1).Reads [0] 0 := reads_word (by decide)
      exact read.bind (ByteReader.Reads.pure false)
    | true =>
      have read : (scanWord 1).Reads [1] 1 := reads_word (by decide)
      exact read.bind (ByteReader.Reads.pure true)

theorem lawful_word : word.Lawful where
  json value := by
    have spells := Source.spells_ofInt value.toNat
    rw [decide_eq_false (Int.not_lt.mpr (Int.natCast_nonneg _))] at spells
    refine ⟨_, Source.reads_number spells, ?_⟩
    have small : value.toNat < UInt32.size := value.toNat_lt
    simp [word, natural?, Text.Digits.value_ofNat, small]
  bytes value _ := by
    have read := (reads_word (show value.toNat < 256 ^ 4 from value.toNat_lt)).map UInt32.ofNat
    rwa [UInt32.ofNat_toNat] at read

theorem lawful_text : text.Lawful where
  json value := ⟨_, Source.reads_quoted value, Json.text?_parts value⟩
  bytes value short := by
    have sized : (Text.Utf8.bytes value).length < 256 ^ 8 := by
      simp only [text, List.length_append, Wire.length_littleEndian] at short
      omega
    have decoded : ByteReader.Reads
        (liftM (Text.Utf8.decode? (Text.Utf8.bytes value)) : ByteScan String) [] value := by
      intro rest
      rw [Text.Utf8.decode?_bytes]
      rfl
    have content : ByteReader.Reads ((Wire.takeBytes? (Text.Utf8.bytes value).length :
        ByteScan (List UInt8)) >>= fun content => liftM (Text.Utf8.decode? content))
        (Text.Utf8.bytes value ++ []) value :=
      (reads_takeBytes? (Text.Utf8.bytes value)).bind decoded
    rw [List.append_nil] at content
    exact (reads_word sized).bind content

theorem text_occupied (value : String) : text.bytes value ≠ [] :=
  List.cons_ne_nil _ _

/-- Null must stand for nothing but the absent value. -/
theorem lawful_option (lawful : form.Lawful) (noNull : form.ofSource? .null = none) :
    form.option.Lawful where
  json value := by
    cases value with
    | none => exact ⟨.null, Source.reads_null, rfl⟩
    | some value =>
      obtain ⟨source, reads, same⟩ := lawful.json value
      refine ⟨source, reads, ?_⟩
      cases source with
      | null => cases noNull.symm.trans same
      | _ => exact congrArg (Option.map some) same
  bytes value short := by
    cases value with
    | none =>
      have read : (scanWord 1).Reads [0] 0 := reads_word (by decide)
      exact read.bind (ByteReader.Reads.pure none)
    | some value =>
      have read : (scanWord 1).Reads [1] 1 := reads_word (by decide)
      have content := lawful.bytes value (Nat.lt_of_succ_lt short)
      exact read.bind (content.map some)

section List

variable {items : List α}

theorem exists_sources_of_items (lawful : form.Lawful) (items : List α) :
    ∃ sources, List.Forall₂ Source.Reads ((items.map form.json).map Json.chars) sources ∧
      sources.mapM form.ofSource? = some items := by
  induction items with
  | nil => exact ⟨[], .nil, rfl⟩
  | cons item items ih =>
    obtain ⟨source, reads, same⟩ := lawful.json item
    obtain ⟨sources, others, rest⟩ := ih
    refine ⟨source :: sources, .cons reads others, ?_⟩
    rw [List.mapM_cons, same, rest]
    rfl

theorem reads_items (lawful : form.Lawful)
    (short : (items.flatMap form.bytes).length < 2 ^ 64) :
    (scanMany form.scan items.length).Reads (items.flatMap form.bytes) items := by
  induction items with
  | nil => exact ByteReader.Reads.pure []
  | cons item items ih =>
    rw [List.flatMap_cons, List.length_append] at short
    have head := lawful.bytes item (by omega)
    have tail := ih (by omega)
    exact head.bind (tail.map (item :: ·))

/-- Items that take some bytes each are no more than their bytes. -/
theorem length_le_of_occupied (occupied : ∀ item, form.bytes item ≠ []) (items : List α) :
    items.length ≤ (items.flatMap form.bytes).length := by
  induction items with
  | nil => exact Nat.le_refl 0
  | cons item items ih =>
    have some := List.length_pos_iff.mpr (occupied item)
    rw [List.flatMap_cons, List.length_append, List.length_cons]
    omega

theorem lawful_list (lawful : form.Lawful) (occupied : ∀ item, form.bytes item ≠ []) :
    form.list.Lawful where
  json items := by
    obtain ⟨sources, reads, same⟩ := exists_sources_of_items lawful items
    exact ⟨.array sources, Json.reads_array_chars reads, same⟩
  bytes items short := by
    have counted := length_le_of_occupied occupied items
    simp only [list, List.length_append, Wire.length_littleEndian] at short
    have read := reads_word (show items.length < 256 ^ 8 by omega)
    exact read.bind (reads_items lawful (by omega))

end List

end Form

/-- A member of a tree is read under its name. -/
structure ReadsMember (member : String × Json) (found : String × Source) : Prop where
  name : found.1 = member.1
  value : Source.Reads member.2.chars found.2

namespace Members

/-- Members of these names are read back, from among whatever else an object has, and from their
bytes. -/
structure Lawful (members : Members α) (names : List String) : Prop where
  names (value : α) : (members.json value).map (·.1) = names
  json (value : α) : ∃ found, List.Forall₂ ReadsMember (members.json value) found ∧
    ∀ others : List (String × Source),
      (∀ pair ∈ found, (others.filter fun other => other.1 = pair.1) = [pair]) →
        members.ofMembers? others = some value
  bytes (value : α) (short : (members.bytes value).length < 2 ^ 64) :
    members.scan.Reads (members.bytes value) value

theorem lawful_nil : nil.Lawful [] where
  names _ := rfl
  json _ := ⟨[], .nil, fun _ _ => rfl⟩
  bytes _ _ := ByteReader.Reads.pure ()

theorem lawful_cons (name : String) {names : List String} {form : Form α} {rest : Members β}
    (first : form.Lawful) (others : rest.Lawful names) :
    (cons name form rest).Lawful (name :: names) where
  names value := congrArg (name :: ·) (others.names value.2)
  json value := by
    obtain ⟨source, reads, same⟩ := first.json value.1
    obtain ⟨found, readsOthers, back⟩ := others.json value.2
    refine ⟨(name, source) :: found, .cons ⟨rfl, reads⟩ readsOthers, fun all alone => ?_⟩
    rw [List.forall_mem_cons] at alone
    have head : member? name form all = some value.1 := by
      rw [member?, alone.1]
      exact same
    simp [cons, head, back all alone.2]
  bytes value short := by
    simp only [cons, List.length_append] at short
    have head := first.bytes value.1 (by omega)
    have tail := others.bytes value.2 (by omega)
    exact head.bind (tail.map (value.1, ·))

theorem cons_occupied (name : String) {form : Form α} {rest : Members β} {value : α × β}
    (occupied : form.bytes value.1 ≠ []) : (cons name form rest).bytes value ≠ [] :=
  fun empty => occupied (List.append_eq_nil_iff.mp empty).1

section Inversion

variable {name : String} {form : Form α} {rest : Members β} {value : α × β}

theorem ofMembers?_cons_eq_some {members : List (String × Source)}
    (read : (cons name form rest).ofMembers? members = some value) :
    member? name form members = some value.1 ∧ rest.ofMembers? members = some value.2 := by
  obtain ⟨head, first, read⟩ := Option.bind_eq_some_iff.mp read
  obtain ⟨tail, others, same⟩ := Option.bind_eq_some_iff.mp read
  cases same
  exact ⟨first, others⟩

theorem ofItems?_cons_eq_some {items remaining : List Source}
    (read : (cons name form rest).ofItems? items = some (value, remaining)) :
    ∃ item behind, items = item :: behind ∧ form.ofSource? item = some value.1 ∧
      rest.ofItems? behind = some (value.2, remaining) := by
  cases items with
  | nil => cases read
  | cons item behind =>
    obtain ⟨head, first, read⟩ := Option.bind_eq_some_iff.mp read
    obtain ⟨⟨tail, left⟩, others, same⟩ := Option.bind_eq_some_iff.mp read
    cases same
    exact ⟨item, behind, rfl, first, others⟩

theorem scan_cons_eq_some (name : String) {bytes remaining : List UInt8}
    (read : (cons name form rest).scan.run bytes = some (value, remaining)) :
    ∃ behind, form.scan.run bytes = some (value.1, behind) ∧
      rest.scan.run behind = some (value.2, remaining) := by
  obtain ⟨⟨head, behind⟩, first, read⟩ := Option.bind_eq_some_iff.mp read
  obtain ⟨⟨tail, left⟩, others, same⟩ := Option.bind_eq_some_iff.mp read
  cases same
  exact ⟨behind, first, others⟩

end Inversion

end Members

namespace Form

theorem named?_parts (found : List (String × Source)) :
    named? (found.map fun member => (parts member.1, member.2)) = some found := by
  induction found with
  | nil => rfl
  | cons member found ih =>
    simp only [named?] at ih
    simp only [named?, List.map_cons, List.mapM_cons, ih, Json.text?_parts]
    rfl

theorem reads_record {members : List (String × Json)} {found : List (String × Source)}
    (reads : List.Forall₂ ReadsMember members found) :
    Source.Reads (Json.object members).chars
      (.object (found.map fun member => (parts member.1, member.2))) := by
  refine Json.reads_object_chars ?_
  induction reads with
  | nil => exact .nil
  | cons first _ ih => exact .cons ⟨congrArg parts first.name, first.value⟩ ih

theorem names_of_reads {members : List (String × Json)} {found : List (String × Source)}
    (reads : List.Forall₂ ReadsMember members found) :
    found.map (·.1) = members.map (·.1) := by
  induction reads with
  | nil => rfl
  | cons first _ ih => rw [List.map_cons, List.map_cons, first.name, ih]

theorem lawful_record {members : Members α} {names : List String} (lawful : members.Lawful names)
    (distinct : names.Nodup) : (record members).Lawful where
  json value := by
    obtain ⟨found, reads, back⟩ := lawful.json value
    have single : (found.map (·.1)).Nodup := by
      rwa [names_of_reads reads, lawful.names]
    refine ⟨_, reads_record reads, ?_⟩
    simp only [record, named?_parts, Option.bind_some]
    exact back found fun pair member => filter_of_distinct single member
  bytes := lawful.bytes

end Form

namespace Alternative

/-- How a value of an alternative is written. -/
inductive Writes (alternative : Alternative α) (value : α) : Json → Prop where
  | bare (read : alternative.bare? = some value) :
      Writes alternative value (.string alternative.name)
  | content {inner : Json} {source : Source} (reads : Source.Reads inner.chars source)
      (read : alternative.ofContent? source = some value) :
      Writes alternative value (.object [(alternative.name, inner)])

/-- Values of an alternative are read back from what is written of them. -/
structure Lawful (alternative : Alternative α) : Prop where
  json {value : α} {tree : Json} (written : alternative.json? value = some tree) :
    alternative.Writes value tree
  bytes {value : α} {content : List UInt8} (written : alternative.bytes? value = some content)
    (short : content.length < 2 ^ 64) : alternative.scan.Reads content value

/-- A value is written by an alternative, in both forms. -/
def Covers (alternative : Alternative α) (value : α) : Prop :=
  (alternative.json? value).isSome ∧ (alternative.bytes? value).isSome

theorem lawful_single [DecidableEq α] (name : String) (value : α) :
    (single name value).Lawful where
  json {other tree} written := by
    simp only [single] at written
    split at written
    · next same =>
      cases written
      exact .bare (congrArg some same.symm)
    · cases written
  bytes {other content} written _ := by
    simp only [single] at written
    split at written
    · next same =>
      cases written
      rw [same]
      exact ByteReader.Reads.pure value
    · cases written

theorem covers_single [DecidableEq α] (name : String) (value : α) :
    (single name value).Covers value := by
  simp [Covers, single]

theorem lawful_content {name : String} {form : Form β} {wrap : β → α} {content? : α → Option β}
    (lawful : form.Lawful)
    (inverse : ∀ value inner, content? value = some inner → wrap inner = value) :
    (content name form wrap content?).Lawful where
  json {value tree} written := by
    obtain ⟨inner, held, rfl⟩ := Option.map_eq_some_iff.mp written
    obtain ⟨source, reads, same⟩ := lawful.json inner
    refine .content reads ?_
    rw [← inverse value inner held]
    exact congrArg (Option.map wrap) same
  bytes {value bytes} written short := by
    obtain ⟨inner, held, rfl⟩ := Option.map_eq_some_iff.mp written
    rw [← inverse value inner held]
    exact (lawful.bytes inner short).map wrap

theorem covers_content {name : String} {form : Form β} {wrap : β → α} {content? : α → Option β}
    {value : α} {inner : β} (held : content? value = some inner) :
    (content name form wrap content?).Covers value := by
  simp [Covers, content, held]

end Alternative

namespace Form

variable {alternatives : List (Alternative α)}

theorem find?_name {alternative : Alternative α}
    (distinct : (alternatives.map (·.name)).Nodup) (member : alternative ∈ alternatives) :
    alternatives.find? (·.name = alternative.name) = some alternative := by
  rw [← List.head?_filter, filter_of_distinct distinct member, List.head?_cons]

/-- The bytes of a choice are the position of an alternative that writes the value, and what it
writes. -/
theorem choiceBytes_eq {value : α}
    (covered : ∃ alternative ∈ alternatives, alternative.Covers value) (index : Nat) :
    ∃ offset alternative content, alternatives[offset]? = some alternative ∧
      alternative.bytes? value = some content ∧
      choiceBytes value index alternatives = Wire.littleEndian 4 (index + offset) ++ content := by
  induction alternatives generalizing index with
  | nil =>
    obtain ⟨_, member, _⟩ := covered
    cases member
  | cons head rest ih =>
    cases written : head.bytes? value with
    | some content =>
      refine ⟨0, head, content, rfl, written, ?_⟩
      simp only [choiceBytes, written, Nat.add_zero]
    | none =>
      obtain ⟨alternative, member, covers⟩ := covered
      rcases List.mem_cons.mp member with rfl | member
      · rw [Alternative.Covers, written] at covers
        cases covers.2
      · obtain ⟨offset, other, content, here, writes, same⟩ :=
          ih ⟨alternative, member, covers⟩ (index + 1)
        refine ⟨offset + 1, other, content, here, writes, ?_⟩
        simp only [choiceBytes, written, same, Nat.add_assoc, Nat.add_comm 1]

theorem lawful_choice (lawful : ∀ alternative ∈ alternatives, alternative.Lawful)
    (distinct : (alternatives.map (·.name)).Nodup) (few : alternatives.length ≤ 2 ^ 32)
    (covered : ∀ value, ∃ alternative ∈ alternatives, alternative.Covers value) :
    (choice alternatives).Lawful where
  json value := by
    obtain ⟨writer, among, covers⟩ := covered value
    obtain ⟨tree, written⟩ : ∃ tree, (alternatives.findSome? fun alternative =>
        alternative.json? value) = some tree :=
      Option.isSome_iff_exists.mp (List.findSome?_isSome_iff.mpr ⟨writer, among, covers.1⟩)
    obtain ⟨alternative, member, writes⟩ := List.exists_of_findSome?_eq_some written
    have found := find?_name distinct member
    have writes := (lawful alternative member).json writes
    have same : (choice alternatives).json value = tree := by
      simp only [choice, written, Option.getD_some]
    rw [same]
    cases writes with
    | bare read =>
      refine ⟨_, Source.reads_quoted alternative.name, ?_⟩
      simp [choice, Json.text?_parts, found, read]
    | @content inner source reads read =>
      have member : ReadsMember (alternative.name, inner) (alternative.name, source) := ⟨rfl, reads⟩
      refine ⟨_, reads_record (.cons member .nil), ?_⟩
      simp [choice, Json.text?_parts, found, read]
  bytes value short := by
    obtain ⟨offset, alternative, content, here, writes, same⟩ := choiceBytes_eq (covered value) 0
    rw [Nat.zero_add] at same
    simp only [choice, same, List.length_append, Wire.length_littleEndian] at short ⊢
    obtain ⟨below, _⟩ := List.getElem?_eq_some_iff.mp here
    have position := reads_word (show offset < 256 ^ 4 by omega)
    have read := (lawful alternative (List.mem_of_getElem? here)).bytes writes (by omega)
    refine position.bind ?_
    simp only [here]
    exact read

/-- A choice between values that are told by their names alone. -/
theorem lawful_enumeration [DecidableEq α] {values : List α} {name : α → String}
    (complete : ∀ value, value ∈ values) (distinct : (values.map name).Nodup)
    (few : values.length ≤ 2 ^ 32) :
    (choice (values.map fun value => .single (name value) value)).Lawful := by
  refine lawful_choice ?_ ?_ ?_ fun value => ?_
  · intro alternative member
    obtain ⟨value, _, rfl⟩ := List.mem_map.mp member
    exact Alternative.lawful_single (name value) value
  · rwa [List.map_map]
  · rwa [List.length_map]
  · exact ⟨_, List.mem_map_of_mem (complete value), Alternative.covers_single _ _⟩

end Form

end RowProjection.Descriptor
