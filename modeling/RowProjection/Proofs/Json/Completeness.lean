import RowProjection.Proofs.Json.ReadBack

namespace RowProjection.Json

open Grammar

namespace Source

variable {text start behind rest : List Char}

theorem length_of_blanksAt (blanks : BlanksAt text rest) : rest.length ≤ text.length := by
  obtain ⟨spaces, _, rfl⟩ := blanks
  rw [List.length_append]
  exact Nat.le_add_left _ _

theorem isSpace_of_mem {spaces : List Char}
    (areBlanks : ∀ blank ∈ spaces, blank ∈ [' ', '\t', '\n', '\r']) :
    ∀ blank ∈ spaces, isSpace blank = true := by
  intro blank member
  simpa [isSpace, or_assoc] using areBlanks blank member

theorem skipSpace_of_blanksAt (blanks : BlanksAt text rest) : skipSpace text = skipSpace rest := by
  obtain ⟨spaces, areBlanks, rfl⟩ := blanks
  exact List.dropWhile_append_of_pos (isSpace_of_mem areBlanks)

theorem ends_of_blanksAt (blanks : BlanksAt text rest) (ends : Ends rest) : Ends text := by
  obtain ⟨spaces, areBlanks, rfl⟩ := blanks
  cases spaces with
  | nil => exact ends
  | cons blank spaces =>
    rintro head ⟨⟩
    exact .inr (isSpace_of_mem areBlanks _ (List.mem_cons_self ..))

theorem escape?_of_mem {mark char : Char} (known : (mark, char) ∈ escapes) :
    escape? mark = some char := by
  simp only [escapes, List.mem_cons, List.not_mem_nil, or_false, Prod.mk.injEq] at known
  rcases known with ⟨rfl, rfl⟩ | ⟨rfl, rfl⟩ | ⟨rfl, rfl⟩ | ⟨rfl, rfl⟩ | ⟨rfl, rfl⟩ | ⟨rfl, rfl⟩ |
    ⟨rfl, rfl⟩ | ⟨rfl, rfl⟩
  all_goals rfl

/-- A string is taken up to its closing quote. -/
theorem readString_of_partsAt {parts : List StringPart} (string : PartsAt text parts rest) :
    readString text = some (parts, rest) ∧ rest.length ≤ text.length := by
  induction string with
  | close => exact ⟨rfl, Nat.le_succ _⟩
  | plain printable noQuote noEscape _ ih =>
    obtain ⟨read, shorter⟩ := ih
    rw [readString_plain _ (Nat.not_lt.mpr printable) noQuote noEscape, read]
    exact ⟨rfl, by rw [List.length_cons]; omega⟩
  | escape known _ ih =>
    obtain ⟨read, shorter⟩ := ih
    rw [readString_escape _ (escape?_of_mem known), read]
    exact ⟨rfl, by simp only [List.length_cons]; omega⟩
  | unit four value _ ih =>
    obtain ⟨read, shorter⟩ := ih
    rw [readString_unit four value, read]
    exact ⟨rfl, by simp only [List.length_cons, List.length_append]; omega⟩

/-- A reader of bounded depth takes this from a text, in as many steps as there are characters. -/
structure Takes {α : Type} (read : Nat → List Char → Option (α × List Char)) (text : List Char)
    (found : α) (rest : List Char) : Prop where
  shorter : rest.length ≤ text.length
  reads : ∀ steps, text.length ≤ steps → read steps text = some (found, rest)

theorem readValue_of_blanksAt (steps : Nat) (blanks : BlanksAt text start) :
    readValue steps text = readValue steps start := by
  cases steps with
  | zero => rfl
  | succ steps => rw [readValue, readValue, skipSpace_of_blanksAt blanks]

theorem readItems_of_blanksAt (steps : Nat) (blanks : BlanksAt text start) :
    readItems steps text = readItems steps start := by
  cases steps with
  | zero => rfl
  | succ steps => rw [readItems, readItems, skipSpace_of_blanksAt blanks]

theorem readMembers_of_blanksAt (steps : Nat) (blanks : BlanksAt text start) :
    readMembers steps text = readMembers steps start := by
  cases steps with
  | zero => rfl
  | succ steps => rw [readMembers, readMembers, skipSpace_of_blanksAt blanks]

/-- The reader passes over blanks in front of what it takes. -/
theorem Takes.behind_blanks {α : Type} {read : Nat → List Char → Option (α × List Char)} {found : α}
    (takes : Takes read start found rest) (blanks : BlanksAt text start)
    (skips : ∀ steps, read steps text = read steps start) : Takes read text found rest := by
  have front := length_of_blanksAt blanks
  refine ⟨takes.shorter.trans front, fun steps enough => ?_⟩
  rw [skips, takes.reads steps (front.trans enough)]

theorem ends_of_itemsAt {items : List Source} (itemsAt : ItemsAt text items rest) : Ends text := by
  cases itemsAt with
  | close => exact ends_cons (by decide)
  | next => exact ends_cons (by decide)

theorem ends_of_membersAt {members : List (List StringPart × Source)}
    (membersAt : MembersAt text members rest) : Ends text := by
  cases membersAt with
  | close => exact ends_cons (by decide)
  | next => exact ends_cons (by decide)

/-- The key of a member is taken, and the value begins behind its colon. -/
theorem readKey_of_partsAt {parts : List StringPart} {afterKey value : List Char}
    (before : BlanksAt text ('"' :: start)) (key : PartsAt start parts afterKey)
    (colon : BlanksAt afterKey (':' :: value)) :
    readKey text = some (parts, value) ∧ value.length < text.length := by
  obtain ⟨read, shorter⟩ := readString_of_partsAt key
  have front := length_of_blanksAt before
  have back := length_of_blanksAt colon
  rw [List.length_cons] at front back
  refine ⟨?_, by omega⟩
  rw [readKey, skipSpace_of_blanksAt before, skipSpace_cons rfl]
  simp [read, skipSpace_of_blanksAt colon, skipSpace_cons (rfl : isSpace ':' = false)]

theorem takes_word {α : Type} {read : Nat → List Char → Option (α × List Char)} {word : List Char}
    {found : α} (nonempty : word ≠ [])
    (reads : ∀ steps, read (steps + 1) (word ++ rest) = some (found, rest)) :
    Takes read (word ++ rest) found rest := by
  have shorter : rest.length < (word ++ rest).length := by
    rw [List.length_append]
    exact Nat.lt_add_of_pos_left (List.length_pos_iff.mpr nonempty)
  refine ⟨shorter.le, fun steps enough => ?_⟩
  obtain ⟨steps, rfl⟩ := Nat.exists_eq_add_of_le' (Nat.zero_lt_of_lt (shorter.trans_le enough))
  exact reads steps

theorem takes_number {token : NumberToken} (number : NumberAt text token rest) (ends : Ends rest) :
    Takes readValue text (.number token) rest := by
  have shorter : rest.length ≤ text.length := by
    cases number
    simp only [List.length_append]
    omega
  obtain ⟨head, behind, rfl, _⟩ := front_of_numberAt number
  refine ⟨shorter, fun steps enough => ?_⟩
  obtain ⟨steps, rfl⟩ := Nat.exists_eq_add_of_le' enough
  exact readValue_number number ends

theorem takes_string {parts : List StringPart} (string : PartsAt text parts rest) :
    Takes readValue ('"' :: text) (.string parts) rest := by
  obtain ⟨read, shorter⟩ := readString_of_partsAt string
  refine ⟨shorter.trans (Nat.le_succ _), fun steps enough => ?_⟩
  obtain ⟨steps, rfl⟩ := Nat.exists_eq_add_of_le' enough
  exact readValue_string read

/-- Brackets around blanks are taken by a step that finds the closing one behind the blanks. -/
theorem takes_empty {mark close : Char} {found : Source} (blanks : BlanksAt text (close :: rest))
    (noSpace : isSpace close = false)
    (step : ∀ steps, skipSpace text = close :: rest →
      readValue (steps + 1) (mark :: text) = some (found, rest)) :
    Takes readValue (mark :: text) found rest := by
  have front := length_of_blanksAt blanks
  rw [List.length_cons] at front
  refine ⟨(Nat.le_of_succ_le front).trans (Nat.le_succ _), fun steps enough => ?_⟩
  cases steps with
  | zero => cases enough
  | succ steps => exact step steps ((skipSpace_of_blanksAt blanks).trans (skipSpace_cons noSpace))

theorem takes_emptyArray (blanks : BlanksAt text (']' :: rest)) :
    Takes readValue ('[' :: text) (.array []) rest := by
  refine takes_empty blanks rfl fun steps stands => ?_
  rw [readValue, skipSpace_cons rfl]
  simp [stands]

theorem takes_emptyObject (blanks : BlanksAt text ('\x7d' :: rest)) :
    Takes readValue ('\x7b' :: text) (.object []) rest := by
  refine takes_empty blanks rfl fun steps stands => ?_
  rw [readValue, skipSpace_cons rfl]
  simp [stands]

/-- A mark, one part behind it and the others behind that are taken by a step that takes both. -/
theorem Takes.followed {α β γ : Type} {read : Nat → List Char → Option (α × List Char)}
    {readFirst : Nat → List Char → Option (β × List Char)}
    {readOthers : Nat → List Char → Option (γ × List Char)} {mark : Char} {found : α} {one : β}
    {more : γ} (first : Takes readFirst start one behind)
    (others : Takes readOthers behind more rest) (within : start.length ≤ text.length)
    (step : ∀ steps, readFirst steps start = some (one, behind) →
      readOthers steps behind = some (more, rest) →
        read (steps + 1) (mark :: text) = some (found, rest)) :
    Takes read (mark :: text) found rest := by
  have left := others.shorter.trans (first.shorter.trans within)
  refine ⟨left.trans (Nat.le_succ _), fun steps enough => ?_⟩
  cases steps with
  | zero => cases enough
  | succ steps =>
    have fits := within.trans (Nat.le_of_succ_le_succ enough)
    exact step steps (first.reads steps fits) (others.reads steps (first.shorter.trans fits))

theorem takes_array {item : Source} {items : List Source} (first : Takes readValue text item behind)
    (others : Takes readItems behind items rest) :
    Takes readValue ('[' :: text) (.array (item :: items)) rest :=
  first.followed others le_rfl fun _ one more => readValue_array one more

theorem takes_item {item : Source} {items : List Source} (first : Takes readValue text item behind)
    (others : Takes readItems behind items rest) :
    Takes readItems (',' :: text) (item :: items) rest := by
  refine first.followed others le_rfl fun steps one more => ?_
  rw [readItems, skipSpace_cons rfl]
  simp [one, more]

variable {afterKey : List Char} {member : List StringPart × Source}
  {members : List (List StringPart × Source)}

theorem takes_object (named : readKey text = some (member.1, afterKey))
    (shorter : afterKey.length < text.length) (first : Takes readValue afterKey member.2 behind)
    (others : Takes readMembers behind members rest) :
    Takes readValue ('\x7b' :: text) (.object (member :: members)) rest := by
  refine first.followed others shorter.le fun steps one more => ?_
  rw [readValue_brace steps named, one, Option.bind_some, more, Option.map_some]

theorem takes_member (named : readKey text = some (member.1, afterKey))
    (shorter : afterKey.length < text.length) (first : Takes readValue afterKey member.2 behind)
    (others : Takes readMembers behind members rest) :
    Takes readMembers (',' :: text) (member :: members) rest := by
  refine first.followed others shorter.le fun steps one more => ?_
  rw [readMembers_comma steps named, one, Option.bind_some, more, Option.map_some]

mutual

/-- What the grammar has in front of a text is taken by the reader. -/
theorem takes_of_valueAt {text rest : List Char} {source : Source} :
    ValueAt text source rest → Ends rest → Takes readValue text source rest
  | .null, _ => takes_word (List.cons_ne_nil 'n' ['u', 'l', 'l']) fun _ => rfl
  | .true, _ => takes_word (List.cons_ne_nil 't' ['r', 'u', 'e']) fun _ => rfl
  | .false, _ => takes_word (List.cons_ne_nil 'f' ['a', 'l', 's', 'e']) fun _ => rfl
  | .number spelled, ends => takes_number spelled ends
  | .string quoted, _ => takes_string quoted
  | .emptyArray blanks, _ => takes_emptyArray blanks
  | .array first others, _ => by
    obtain ⟨afterItem, after, item⟩ := takes_of_elementAt first (ends_of_itemsAt others)
    have items := (takes_of_itemsAt others).behind_blanks after fun steps =>
      readItems_of_blanksAt steps after
    exact takes_array item items
  | .emptyObject blanks, _ => takes_emptyObject blanks
  | .object first others, _ => by
    obtain ⟨afterKey, afterValue, named, shorter, after, value⟩ :=
      takes_of_memberAt first (ends_of_membersAt others)
    have members := (takes_of_membersAt others).behind_blanks after fun steps =>
      readMembers_of_blanksAt steps after
    exact takes_object named shorter value members

theorem takes_of_elementAt {text rest : List Char} {source : Source} :
    ElementAt text source rest → Ends rest →
      ∃ behind, BlanksAt behind rest ∧ Takes readValue text source behind
  | .element before value after, ends =>
    ⟨_, after, (takes_of_valueAt value (ends_of_blanksAt after ends)).behind_blanks before
      fun steps => readValue_of_blanksAt steps before⟩

theorem takes_of_itemsAt {text rest : List Char} {items : List Source} :
    ItemsAt text items rest → Takes readItems text items rest
  | .close => takes_word (List.cons_ne_nil ']' []) fun _ => rfl
  | .next first others => by
    obtain ⟨afterItem, after, item⟩ := takes_of_elementAt first (ends_of_itemsAt others)
    have items := (takes_of_itemsAt others).behind_blanks after fun steps =>
      readItems_of_blanksAt steps after
    exact takes_item item items

theorem takes_of_memberAt {text rest : List Char} {member : List StringPart × Source} :
    MemberAt text member rest → Ends rest →
      ∃ afterKey behind, readKey text = some (member.1, afterKey) ∧
        afterKey.length < text.length ∧ BlanksAt behind rest ∧
          Takes readValue afterKey member.2 behind
  | .member before key colon element, ends => by
    obtain ⟨named, shorter⟩ := readKey_of_partsAt before key colon
    obtain ⟨behind, after, value⟩ := takes_of_elementAt element ends
    exact ⟨_, behind, named, shorter, after, value⟩

theorem takes_of_membersAt {text rest : List Char} {members : List (List StringPart × Source)} :
    MembersAt text members rest → Takes readMembers text members rest
  | .close => takes_word (List.cons_ne_nil '\x7d' []) fun _ => rfl
  | .next first others => by
    obtain ⟨afterKey, afterValue, named, shorter, after, value⟩ :=
      takes_of_memberAt first (ends_of_membersAt others)
    have members := (takes_of_membersAt others).behind_blanks after fun steps =>
      readMembers_of_blanksAt steps after
    exact takes_member named shorter value members

end

/-- The reader decides the grammar: what it refuses is no JSON text. -/
theorem isTextOf_iff {source : Source} : source.IsTextOf text ↔ read? text = some source := by
  refine ⟨fun isText => ?_, isTextOf_of_read?⟩
  obtain ⟨behind, after, value⟩ := takes_of_elementAt isText (by rintro head ⟨⟩)
  have ended : skipSpace behind = [] := skipSpace_of_blanksAt after
  rw [read?, value.reads _ (Nat.le_succ _)]
  simp [ended]

end Source

end RowProjection.Json
