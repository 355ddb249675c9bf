import RowProjection.Json.Text
import RowProjection.Proofs.Json.Numbers

namespace RowProjection.Json

namespace StringPart

/-- How a character of a string is read back: control characters without a letter of their own as
code units. -/
def written (char : Char) : StringPart :=
  if char.toNat < 0x20 ∧ char ∉ ['\x08', '\t', '\n', '\x0c', '\r'] then .unit char.toNat
  else .plain char

theorem chars?_unit {code : Nat} (small : code < 0xD800) (rest : List StringPart) :
    chars? (.unit code :: rest) = (chars? rest).map (.ofNat code :: ·) := by
  have noSurrogate : ¬ (0xD800 ≤ code ∧ code < 0xE000) := by omega
  have noHigh : ¬ (0xD800 ≤ code ∧ code < 0xDC00) := by omega
  have noLow : ¬ (0xDC00 ≤ code ∧ code < 0xE000) := by omega
  cases rest with
  | nil => simp [chars?, noSurrogate]
  | cons part rest =>
    cases part with
    | plain char => simp [chars?, noSurrogate]
    | unit low => rw [chars?, if_neg noHigh, if_neg noLow]

theorem chars?_written (text : List Char) : chars? (text.map written) = some text := by
  induction text with
  | nil => rfl
  | cons char rest ih =>
    rw [List.map_cons, written]
    split
    · next control =>
      rw [chars?_unit (by omega), ih, Char.ofNat_toNat]
      rfl
    · rw [chars?, ih]
      rfl

end StringPart

/-- The parts of a text in a JSON string. -/
def parts (text : String) : List StringPart :=
  text.toList.map StringPart.written

theorem text?_parts (text : String) : StringPart.text? (parts text) = some text := by
  rw [StringPart.text?, parts, StringPart.chars?_written, Option.map_some, String.ofList_toList]

namespace Source

open Grammar

variable {rest : List Char}

theorem value?_padded : ∀ code < 0x20, (Text.Hexadecimal.padded 4 code).length = 4 ∧
    Text.Hexadecimal.value? (Text.Hexadecimal.padded 4 code) = some code := by
  decide

/-- A code unit is read with its four digits. -/
theorem readString_unit {digits text : List Char} {code : Nat} (four : digits.length = 4)
    (value : Text.Hexadecimal.value? digits = some code) :
    readString ('\\' :: 'u' :: (digits ++ text)) =
      (readString text).map fun found => (.unit code :: found.1, found.2) := by
  match digits, four with
  | [first, second, third, fourth], _ =>
    simp only [List.cons_append, List.nil_append, readString, value]
    cases readString text <;> rfl

theorem readString_plain {char : Char} (text : List Char) (printable : ¬ char.toNat < 0x20)
    (noQuote : char ≠ '"') (noEscape : char ≠ '\\') :
    readString (char :: text) =
      (readString text).map fun found => (.plain char :: found.1, found.2) := by
  rw [readString, if_neg printable]
  · cases readString text <;> rfl
  · exact noQuote
  · rintro first second third fourth behind rfl
    exact absurd rfl noEscape
  · rintro mark behind rfl
    exact absurd rfl noEscape

theorem readString_escape {mark char : Char} (text : List Char) (known : escape? mark = some char) :
    readString ('\\' :: mark :: text) =
      (readString text).map fun found => (.plain char :: found.1, found.2) := by
  rw [readString]
  · rw [known]
    cases readString text <;> rfl
  · rintro first second third fourth behind rfl rfl
    cases known

/-- A character of a string is read as it was written. -/
theorem readString_escaped (char : Char) (text : List Char) :
    readString (escaped char ++ text) =
      (readString text).map fun found => (StringPart.written char :: found.1, found.2) := by
  unfold escaped
  split
  · exact readString_escape text rfl
  · exact readString_escape text rfl
  · exact readString_escape text rfl
  · exact readString_escape text rfl
  · exact readString_escape text rfl
  · exact readString_escape text rfl
  · exact readString_escape text rfl
  · next noQuote noEscape noBackspace noTab noLine noPage noReturn =>
    have noLetter : char ∉ ['\x08', '\t', '\n', '\x0c', '\r'] := by
      simp only [List.mem_cons, List.not_mem_nil, or_false, not_or]
      exact ⟨noBackspace, noTab, noLine, noPage, noReturn⟩
    split
    · next control =>
      rw [StringPart.written, if_pos ⟨control, noLetter⟩]
      obtain ⟨four, value⟩ := value?_padded char.toNat control
      exact readString_unit four value
    · next printable =>
      rw [StringPart.written, if_neg fun both => printable both.1]
      exact readString_plain text printable noQuote noEscape

/-- Strings are read back, up to their closing quote. -/
theorem readString_quoted (text : String) :
    readString (text.toList.flatMap escaped ++ '"' :: rest) = some (parts text, rest) := by
  rw [parts]
  induction text.toList with
  | nil => rfl
  | cons char others ih =>
    rw [List.flatMap_cons, List.append_assoc, readString_escaped, ih]
    rfl

/-- A token of this value: it is read up to the mark behind it. -/
def Reads (token : List Char) (source : Source) : Prop :=
  ∀ steps rest, token.length ≤ steps → Ends rest →
    readValue steps (token ++ rest) = some (source, rest)

theorem reads_null : Reads Json.null.chars .null := by
  intro steps rest enough ends
  obtain ⟨steps, rfl⟩ := Nat.exists_eq_add_of_le' enough
  rfl

theorem reads_boolean (value : Bool) : Reads (booleanChars value) (.boolean value) := by
  intro steps rest enough ends
  cases value with
  | false =>
    obtain ⟨steps, rfl⟩ := Nat.exists_eq_add_of_le' enough
    rfl
  | true =>
    obtain ⟨steps, rfl⟩ := Nat.exists_eq_add_of_le' enough
    rfl

theorem skipSpace_cons {head : Char} {behind : List Char} (noSpace : isSpace head = false) :
    skipSpace (head :: behind) = head :: behind :=
  List.dropWhile_cons_of_neg (by simpa using noSpace)

theorem readValue_string {steps : Nat} {text : List Char} {parts : List StringPart}
    (read : readString text = some (parts, rest)) :
    readValue (steps + 1) ('"' :: text) = some (.string parts, rest) := by
  rw [readValue, skipSpace_cons rfl]
  simp [read]

theorem reads_quoted (text : String) : Reads (quoted text) (.string (parts text)) := by
  intro steps rest enough ends
  obtain ⟨steps, rfl⟩ := Nat.exists_eq_add_of_le' enough
  rw [quoted, List.cons_append, List.append_assoc, List.singleton_append, List.length_cons,
    ← Nat.add_assoc]
  exact readValue_string (readString_quoted text)

/-- A number begins with a digit or with its sign. -/
theorem front_of_numberAt {text : List Char} {token : NumberToken}
    (number : NumberAt text token rest) :
    ∃ head behind, text = head :: behind ∧
      ∀ mark, mark ≠ '-' → mark.isDigit = false → head ≠ mark := by
  cases number with
  | @number negative whole digits fraction power _ exponent areDigits leading fractionText
      exponentText =>
    cases negative with
    | true => exact ⟨_, _, rfl, fun mark noSign _ => noSign.symm⟩
    | false =>
      obtain ⟨nonempty, all⟩ := areDigits
      cases whole with
      | nil => exact absurd rfl nonempty
      | cons first others =>
        refine ⟨first, _, rfl, ?_⟩
        rintro mark _ noDigit rfl
        rw [all first (List.mem_cons_self ..)] at noDigit
        cases noDigit

theorem readValue_number {steps : Nat} {text : List Char} {token : NumberToken}
    (number : NumberAt text token rest) (ends : Ends rest) :
    readValue (steps + 1) text = some (.number token, rest) := by
  have read := readNumber_of_numberAt number ends
  obtain ⟨head, behind, rfl, front⟩ := front_of_numberAt number
  have noSpace : isSpace head = false := by
    simp [isSpace, front ' ' (by decide) rfl, front '\t' (by decide) rfl,
      front '\n' (by decide) rfl, front '\r' (by decide) rfl]
  rw [readValue, skipSpace_cons noSpace]
  split
  · next same => exact absurd (List.cons.inj same).1 (front 'n' (by decide) rfl)
  · next same => exact absurd (List.cons.inj same).1 (front 't' (by decide) rfl)
  · next same => exact absurd (List.cons.inj same).1 (front 'f' (by decide) rfl)
  · next same => exact absurd (List.cons.inj same).1 (front '"' (by decide) rfl)
  · next same => exact absurd (List.cons.inj same).1 (front '[' (by decide) rfl)
  · next same => exact absurd (List.cons.inj same).1 (front '\x7b' (by decide) rfl)
  · rw [read]
    rfl

theorem reads_number {token : List Char} {number : NumberToken} (spells : Spells token number) :
    Reads token (.number number) := by
  intro steps rest enough ends
  obtain ⟨head, behind, same, _⟩ := front_of_numberAt (spells [])
  rw [List.append_nil] at same
  subst same
  obtain ⟨steps, rfl⟩ := Nat.exists_eq_add_of_le' enough
  exact readValue_number (spells rest) ends

theorem exists_reads_json {format : Number.FloatFormat} (layout : Number.FloatLayout) (bits : Nat)
    (precision : format.fractionBits ≤ 52) :
    ∃ source, Reads ((format.decode bits).json format layout) source := by
  rcases Number.FloatDatum.json_cases layout bits precision with null | ⟨token, spells⟩
  · rw [null]
    exact ⟨.null, reads_null⟩
  · exact ⟨.number token, reads_number spells⟩

/-- Nothing is read where the mark of a next value, or an end, stands. -/
theorem readValue_eq_none {steps : Nat} {mark : Char} {text : List Char}
    (marks : mark ∈ [',', ']', '\x7d']) (stands : skipSpace text = mark :: rest) :
    readValue steps text = none := by
  cases steps with
  | zero => rfl
  | succ steps =>
    rw [readValue, stands]
    simp only [List.mem_cons, List.not_mem_nil, or_false] at marks
    rcases marks with rfl | rfl | rfl <;> rfl

theorem ends_cons {mark : Char} (marks : mark ∈ [',', ']', '\x7d']) : Ends (mark :: rest) := by
  rintro head ⟨⟩
  exact .inl marks

/-- The items behind the first and the end of the array, given the tokens of the items. -/
def moreTokens : List (List Char) → List Char
  | [] => [']']
  | token :: tokens => ',' :: (token ++ moreTokens tokens)

theorem ends_moreTokens (tokens : List (List Char)) (rest : List Char) :
    Ends (moreTokens tokens ++ rest) := by
  cases tokens with
  | nil => exact ends_cons (by decide)
  | cons token tokens => exact ends_cons (by decide)

theorem readItems_of_reads {tokens : List (List Char)} {sources : List Source} {steps : Nat}
    (rest : List Char) (reads : List.Forall₂ Reads tokens sources)
    (enough : (moreTokens tokens).length ≤ steps) :
    readItems steps (moreTokens tokens ++ rest) = some (sources, rest) := by
  induction reads generalizing steps with
  | nil =>
    obtain ⟨steps, rfl⟩ := Nat.exists_eq_add_of_le' enough
    rfl
  | @cons token source tokens sources first others ih =>
    rw [moreTokens, List.length_cons, List.length_append] at enough
    cases steps with
    | zero => cases enough
    | succ steps =>
      have value := first steps _ (by omega) (ends_moreTokens tokens rest)
      have items := @ih steps (by omega)
      rw [moreTokens, List.cons_append, List.append_assoc, readItems, skipSpace_cons rfl]
      simp [value, items]

theorem readValue_array {steps : Nat} {text behind : List Char} {item : Source}
    {items : List Source} (first : readValue steps text = some (item, behind))
    (others : readItems steps behind = some (items, rest)) :
    readValue (steps + 1) ('[' :: text) = some (.array (item :: items), rest) := by
  rw [readValue, skipSpace_cons rfl]
  split
  · next same => cases same
  · next same => cases same
  · next same => cases same
  · next same => cases same
  · next same =>
    cases same
    split
    · next stands =>
      rw [readValue_eq_none (by decide) stands] at first
      cases first
    · simp [first, others]
  · next same => cases same
  · next noBracket _ => exact absurd rfl (noBracket text)

theorem reads_array {token : List Char} {source : Source} {tokens : List (List Char)}
    {sources : List Source} (first : Reads token source)
    (others : List.Forall₂ Reads tokens sources) :
    Reads ('[' :: (token ++ moreTokens tokens)) (.array (source :: sources)) := by
  intro steps rest enough ends
  rw [List.length_cons, List.length_append] at enough
  cases steps with
  | zero => cases enough
  | succ steps =>
    have value := first steps _ (by omega) (ends_moreTokens tokens rest)
    have items := readItems_of_reads rest others (by omega : _ ≤ steps)
    rw [List.cons_append, List.append_assoc]
    exact readValue_array value items

theorem reads_empty_array : Reads ['[', ']'] (.array []) := by
  intro steps rest enough ends
  obtain ⟨steps, rfl⟩ := Nat.exists_eq_add_of_le' enough
  rfl

/-- A member as it is written: its name, and the token of its value. -/
structure MemberText where
  name : String
  token : List Char

def MemberText.text (entry : MemberText) : List Char :=
  quoted entry.name ++ ':' :: entry.token

/-- The members behind the first and the end of the object. -/
def moreEntries : List MemberText → List Char
  | [] => ['\x7d']
  | entry :: entries => ',' :: (entry.text ++ moreEntries entries)

/-- A member of this name is read, with this value. -/
structure MemberText.Reads (entry : MemberText) (member : List StringPart × Source) : Prop where
  name : member.1 = parts entry.name
  value : Source.Reads entry.token member.2

theorem readKey_entry (entry : MemberText) (rest : List Char) :
    readKey (entry.text ++ rest) = some (parts entry.name, entry.token ++ rest) := by
  rw [MemberText.text, quoted, List.cons_append, List.cons_append, List.append_assoc,
    List.append_assoc, List.singleton_append, List.cons_append, readKey, skipSpace_cons rfl]
  simp only [readString_quoted]
  rfl

theorem readMembers_comma {text afterKey : List Char} {key : List StringPart} (steps : Nat)
    (named : readKey text = some (key, afterKey)) :
    readMembers (steps + 1) (',' :: text) =
      (readValue steps afterKey).bind fun first =>
        (readMembers steps first.2).map fun others => ((key, first.1) :: others.1, others.2) := by
  rw [readMembers, skipSpace_cons rfl]
  simp only [named, Option.bind_eq_bind, Option.bind_some, Option.map_eq_bind]
  rfl

theorem readValue_brace {text afterKey : List Char} {key : List StringPart} (steps : Nat)
    (named : readKey text = some (key, afterKey)) :
    readValue (steps + 1) ('\x7b' :: text) =
      (readValue steps afterKey).bind fun first =>
        (readMembers steps first.2).map fun others =>
          (.object ((key, first.1) :: others.1), others.2) := by
  rw [readValue, skipSpace_cons rfl]
  split
  · next same => cases same
  · next same => cases same
  · next same => cases same
  · next same => cases same
  · next same => cases same
  · next same =>
    cases same
    split
    · next stands =>
      rw [readKey, stands] at named
      cases named
    · simp only [named, Option.bind_eq_bind, Option.bind_some, Option.map_eq_bind]
      rfl
  · next noBrace => exact absurd rfl (noBrace text)

theorem ends_moreEntries (entries : List MemberText) (rest : List Char) :
    Ends (moreEntries entries ++ rest) := by
  cases entries with
  | nil => exact ends_cons (by decide)
  | cons entry entries => exact ends_cons (by decide)

theorem length_moreEntries_cons (entry : MemberText) (entries : List MemberText) :
    (moreEntries (entry :: entries)).length =
      (quoted entry.name).length + entry.token.length + (moreEntries entries).length + 2 := by
  simp only [moreEntries, MemberText.text, List.length_cons, List.length_append]
  omega

theorem readMembers_of_reads {entries : List MemberText} {members : List (List StringPart × Source)}
    {steps : Nat} (rest : List Char) (reads : List.Forall₂ MemberText.Reads entries members)
    (enough : (moreEntries entries).length ≤ steps) :
    readMembers steps (moreEntries entries ++ rest) = some (members, rest) := by
  induction reads generalizing steps with
  | nil =>
    obtain ⟨steps, rfl⟩ := Nat.exists_eq_add_of_le' enough
    rfl
  | @cons entry member entries members first others ih =>
    rw [length_moreEntries_cons] at enough
    cases steps with
    | zero => cases enough
    | succ steps =>
      have value := first.value steps _ (by omega) (ends_moreEntries entries rest)
      have behind := @ih steps (by omega)
      rw [moreEntries, List.cons_append, List.append_assoc,
        readMembers_comma steps (readKey_entry entry _), value, Option.bind_some, behind,
        Option.map_some, ← first.name]

theorem reads_object {entry : MemberText} {member : List StringPart × Source}
    {entries : List MemberText} {members : List (List StringPart × Source)}
    (first : entry.Reads member)
    (others : List.Forall₂ MemberText.Reads entries members) :
    Reads ('\x7b' :: (entry.text ++ moreEntries entries)) (.object (member :: members)) := by
  intro steps rest enough ends
  rw [MemberText.text, List.length_cons, List.length_append, List.length_append,
    List.length_cons] at enough
  cases steps with
  | zero => cases enough
  | succ steps =>
    have value := first.value steps _ (by omega) (ends_moreEntries entries rest)
    have behind := readMembers_of_reads rest others (by omega : _ ≤ steps)
    rw [List.cons_append, List.append_assoc, readValue_brace steps (readKey_entry entry _), value,
      Option.bind_some, behind, Option.map_some, ← first.name]

theorem reads_empty_object : Reads ['\x7b', '\x7d'] (.object []) := by
  intro steps rest enough ends
  obtain ⟨steps, rfl⟩ := Nat.exists_eq_add_of_le' enough
  rfl

/-- A token alone is a whole text. -/
theorem read?_of_reads {text : List Char} {source : Source} (reads : Reads text source) :
    read? text = some source := by
  have value := reads (text.length + 1) [] (Nat.le_succ _) (by rintro head ⟨⟩)
  rw [List.append_nil] at value
  rw [read?, value]
  rfl

end Source

theorem moreItems_eq (items : List Json) :
    moreItems items = Source.moreTokens (items.map chars) := by
  induction items with
  | nil => rfl
  | cons item rest ih => rw [moreItems, ih, List.map_cons, Source.moreTokens]

/-- A member of a tree as it is written. -/
def entry (member : String × Json) : Source.MemberText :=
  ⟨member.1, member.2.chars⟩

theorem moreMembers_eq (members : List (String × Json)) :
    moreMembers members = Source.moreEntries (members.map entry) := by
  induction members with
  | nil => rfl
  | cons member rest ih =>
    simp [moreMembers, ih, Source.moreEntries, Source.MemberText.text, entry]

theorem reads_array_chars {items : List Json} {sources : List Source}
    (reads : List.Forall₂ Source.Reads (items.map chars) sources) :
    Source.Reads (array items).chars (.array sources) := by
  cases items with
  | nil =>
    cases reads
    exact Source.reads_empty_array
  | cons item rest =>
    cases reads with
    | cons first others =>
      rw [chars, moreItems_eq]
      exact Source.reads_array first others

theorem reads_object_chars {members : List (String × Json)}
    {sources : List (List StringPart × Source)}
    (reads : List.Forall₂ Source.MemberText.Reads (members.map entry) sources) :
    Source.Reads (object members).chars (.object sources) := by
  cases members with
  | nil =>
    cases reads
    exact Source.reads_empty_object
  | cons member rest =>
    cases reads with
    | cons first others =>
      have reads := Source.reads_object first others
      rw [← moreMembers_eq, Source.MemberText.text, List.append_assoc] at reads
      exact reads

mutual

/-- Something is read of the text of every tree. -/
theorem exists_reads : (tree : Json) → ∃ source, Source.Reads tree.chars source
  | .null => ⟨_, Source.reads_null⟩
  | .boolean value => ⟨_, Source.reads_boolean value⟩
  | .integer value => ⟨_, Source.reads_number (Source.spells_ofInt value)⟩
  | .double value => Source.exists_reads_json .jsonDouble value.bits.toNat (by decide)
  | .string value => ⟨_, Source.reads_quoted value⟩
  | .array items => by
    obtain ⟨sources, reads⟩ := exists_reads_items items
    exact ⟨_, reads_array_chars reads⟩
  | .object members => by
    obtain ⟨sources, reads⟩ := exists_reads_members members
    exact ⟨_, reads_object_chars reads⟩

theorem exists_reads_items : (items : List Json) →
    ∃ sources, List.Forall₂ Source.Reads (items.map chars) sources
  | [] => ⟨[], .nil⟩
  | item :: rest => by
    obtain ⟨source, first⟩ := exists_reads item
    obtain ⟨sources, others⟩ := exists_reads_items rest
    exact ⟨source :: sources, .cons first others⟩

theorem exists_reads_members : (members : List (String × Json)) →
    ∃ sources, List.Forall₂ Source.MemberText.Reads (members.map entry) sources
  | [] => ⟨[], .nil⟩
  | (key, value) :: rest => by
    obtain ⟨source, first⟩ := exists_reads value
    obtain ⟨sources, others⟩ := exists_reads_members rest
    exact ⟨(parts key, source) :: sources, .cons ⟨rfl, first⟩ others⟩

end

end RowProjection.Json
