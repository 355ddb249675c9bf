import Mathlib.Data.List.TakeDrop
import Mathlib.Data.List.TakeWhile
import RowProjection.Json.Source

/-! The grammar of JSON texts, as RFC 8259 gives it, and that the reader keeps to it. Each relation
says what stands in front of a text and which text is behind it. -/

namespace RowProjection.Json

namespace Grammar

/-- Blanks in front of a text. -/
def BlanksAt (text rest : List Char) : Prop :=
  ∃ blanks, (∀ blank ∈ blanks, blank ∈ [' ', '\t', '\n', '\r']) ∧ text = blanks ++ rest

def AreDigits (digits : List Char) : Prop :=
  digits ≠ [] ∧ ∀ digit ∈ digits, digit.isDigit = true

/-- The spelling of the digits behind a point, if there are any. -/
inductive FractionText : List Char → List Char → Prop where
  | none : FractionText [] []
  | point {digits : List Char} (areDigits : AreDigits digits) :
      FractionText ('.' :: digits) digits

/-- The spelling of an exponent, if there is one: its sign and its digits. -/
inductive ExponentText : List Char → Option (Bool × List Char) → Prop where
  | none : ExponentText [] none
  | power {mark : Char} {sign digits : List Char} {negative : Bool} (marks : mark ∈ ['e', 'E'])
      (signs : (sign, negative) ∈ [([], false), (['+'], false), (['-'], true)])
      (areDigits : AreDigits digits) :
      ExponentText (mark :: (sign ++ digits)) (some (negative, digits))

/-- A number. A zero at its front stands alone before the point. -/
inductive NumberAt : List Char → NumberToken → List Char → Prop where
  | number {negative : Bool} {whole digits fraction power rest : List Char}
      {exponent : Option (Bool × List Char)} (areDigits : AreDigits whole)
      (leading : whole.head? = some '0' → whole = ['0'])
      (fractionText : FractionText fraction digits) (exponentText : ExponentText power exponent) :
      NumberAt ((if negative then ['-'] else []) ++ (whole ++ (fraction ++ (power ++ rest))))
        ⟨negative, whole, digits, exponent⟩ rest

/-- The characters that stand behind a backslash, and what they stand for. -/
def escapes : List (Char × Char) :=
  [('"', '"'), ('\\', '\\'), ('/', '/'), ('b', '\x08'), ('f', '\x0c'), ('n', '\n'), ('r', '\r'),
   ('t', '\t')]

/-- The parts of a string and its closing quote. -/
inductive PartsAt : List Char → List StringPart → List Char → Prop where
  | close {rest : List Char} : PartsAt ('"' :: rest) [] rest
  | plain {char : Char} {text rest : List Char} {parts : List StringPart}
      (printable : 0x20 ≤ char.toNat) (noQuote : char ≠ '"') (noEscape : char ≠ '\\')
      (others : PartsAt text parts rest) : PartsAt (char :: text) (.plain char :: parts) rest
  | escape {mark char : Char} {text rest : List Char} {parts : List StringPart}
      (known : (mark, char) ∈ escapes) (others : PartsAt text parts rest) :
      PartsAt ('\\' :: mark :: text) (.plain char :: parts) rest
  | unit {digits text rest : List Char} {code : Nat} {parts : List StringPart}
      (four : digits.length = 4) (value : Text.Hexadecimal.value? digits = some code)
      (others : PartsAt text parts rest) :
      PartsAt ('\\' :: 'u' :: (digits ++ text)) (.unit code :: parts) rest

mutual

/-- A value. -/
inductive ValueAt : List Char → Source → List Char → Prop where
  | null {rest : List Char} : ValueAt ('n' :: 'u' :: 'l' :: 'l' :: rest) .null rest
  | true {rest : List Char} : ValueAt ('t' :: 'r' :: 'u' :: 'e' :: rest) (.boolean true) rest
  | false {rest : List Char} :
      ValueAt ('f' :: 'a' :: 'l' :: 's' :: 'e' :: rest) (.boolean false) rest
  | number {token : NumberToken} {text rest : List Char} (number : NumberAt text token rest) :
      ValueAt text (.number token) rest
  | string {parts : List StringPart} {text rest : List Char} (string : PartsAt text parts rest) :
      ValueAt ('"' :: text) (.string parts) rest
  | emptyArray {text rest : List Char} (blanks : BlanksAt text (']' :: rest)) :
      ValueAt ('[' :: text) (.array []) rest
  | array {item : Source} {items : List Source} {text behind rest : List Char}
      (first : ElementAt text item behind) (others : ItemsAt behind items rest) :
      ValueAt ('[' :: text) (.array (item :: items)) rest
  | emptyObject {text rest : List Char} (blanks : BlanksAt text ('\x7d' :: rest)) :
      ValueAt ('\x7b' :: text) (.object []) rest
  | object {member : List StringPart × Source} {members : List (List StringPart × Source)}
      {text behind rest : List Char} (first : MemberAt text member behind)
      (others : MembersAt behind members rest) :
      ValueAt ('\x7b' :: text) (.object (member :: members)) rest

/-- A value with blanks around it. -/
inductive ElementAt : List Char → Source → List Char → Prop where
  | element {source : Source} {text start behind rest : List Char} (before : BlanksAt text start)
      (value : ValueAt start source behind) (after : BlanksAt behind rest) :
      ElementAt text source rest

/-- The items of an array behind the first, and its end. -/
inductive ItemsAt : List Char → List Source → List Char → Prop where
  | close {rest : List Char} : ItemsAt (']' :: rest) [] rest
  | next {item : Source} {items : List Source} {text behind rest : List Char}
      (first : ElementAt text item behind) (others : ItemsAt behind items rest) :
      ItemsAt (',' :: text) (item :: items) rest

/-- A key and a value, with blanks around each. -/
inductive MemberAt : List Char → List StringPart × Source → List Char → Prop where
  | member {parts : List StringPart} {source : Source} {text start afterKey value rest : List Char}
      (before : BlanksAt text ('"' :: start)) (key : PartsAt start parts afterKey)
      (colon : BlanksAt afterKey (':' :: value)) (element : ElementAt value source rest) :
      MemberAt text (parts, source) rest

/-- The members of an object behind the first, and its end. -/
inductive MembersAt : List Char → List (List StringPart × Source) → List Char → Prop where
  | close {rest : List Char} : MembersAt ('\x7d' :: rest) [] rest
  | next {member : List StringPart × Source} {members : List (List StringPart × Source)}
      {text behind rest : List Char} (first : MemberAt text member behind)
      (others : MembersAt behind members rest) :
      MembersAt (',' :: text) (member :: members) rest

end

end Grammar

open Grammar

/-- A whole text that holds this. -/
def Source.IsTextOf (source : Source) (text : List Char) : Prop :=
  ElementAt text source []

namespace Source

variable {text rest : List Char}

theorem blanksAt_skipSpace (text : List Char) : BlanksAt text (skipSpace text) := by
  refine ⟨text.takeWhile isSpace, fun blank member => ?_, ?_⟩
  · have space := List.mem_takeWhile_imp member
    simpa [isSpace, or_assoc] using space
  · exact List.takeWhile_append_dropWhile.symm

theorem areDigits_of_split {digits : List Char} (split : Text.Digits.split text = (digits, rest))
    (some : digits ≠ []) : AreDigits digits ∧ text = digits ++ rest := by
  rw [Text.Digits.split, List.span_eq_takeWhile_dropWhile] at split
  cases split
  exact ⟨⟨some, fun digit member => List.mem_takeWhile_imp member⟩,
    List.takeWhile_append_dropWhile.symm⟩

theorem areDigits_of_allDigits {digits : List Char}
    (read : Text.Scan.allDigits text = some (digits, rest)) :
    AreDigits digits ∧ text = digits ++ rest := by
  simp only [Text.Scan.allDigits] at read
  split at read
  · cases read
  · next some =>
    cases read
    exact areDigits_of_split rfl (by simpa using some)

theorem areDigits_of_readWhole {digits : List Char} (read : readWhole text = some (digits, rest)) :
    AreDigits digits ∧ (digits.head? = some '0' → digits = ['0']) ∧ text = digits ++ rest := by
  unfold readWhole at read
  split at read
  · cases read
  · cases read
  · next front behind none leading split =>
    cases read
    have some : digits ≠ [] := fun empty => none empty
    obtain ⟨areDigits, same⟩ := areDigits_of_split split some
    refine ⟨areDigits, fun zero => ?_, same⟩
    cases digits with
    | nil => exact absurd rfl some
    | cons first others =>
      cases zero
      cases others with
      | nil => rfl
      | cons second others => exact (leading second others rfl).elim

theorem fractionText_of_readFraction {digits : List Char}
    (read : readFraction text = some (digits, rest)) :
    ∃ spelling, FractionText spelling digits ∧ text = spelling ++ rest := by
  unfold readFraction at read
  split at read
  · obtain ⟨areDigits, rfl⟩ := areDigits_of_allDigits read
    exact ⟨_, .point areDigits, rfl⟩
  · cases read
    exact ⟨[], .none, rfl⟩

theorem exponentText_of_power {mark : Char} {unsigned : List Char} {negative : Bool}
    {exponent : Option (Bool × List Char)} (sign : List Char) (marks : mark ∈ ['e', 'E'])
    (signs : (sign, negative) ∈ [([], false), (['+'], false), (['-'], true)])
    (read : (Text.Scan.allDigits unsigned >>= fun found =>
        pure (some (negative, found.1), found.2)) =
      some (exponent, rest)) :
    ∃ spelling, ExponentText spelling exponent ∧ mark :: (sign ++ unsigned) = spelling ++ rest := by
  obtain ⟨⟨digits, remaining⟩, all, read⟩ := Option.bind_eq_some_iff.mp read
  cases read
  obtain ⟨areDigits, rfl⟩ := areDigits_of_allDigits all
  exact ⟨_, .power marks signs areDigits, by simp⟩

theorem exponentText_of_readExponent {exponent : Option (Bool × List Char)}
    (read : readExponent text = some (exponent, rest)) :
    ∃ spelling, ExponentText spelling exponent ∧ text = spelling ++ rest := by
  unfold readExponent at read
  dsimp only at read
  split at read
  · split at read
    · exact exponentText_of_power ['-'] (by simp) (by simp) read
    · exact exponentText_of_power ['+'] (by simp) (by simp) read
    · exact exponentText_of_power [] (by simp) (by simp) read
  · split at read
    · exact exponentText_of_power ['-'] (by simp) (by simp) read
    · exact exponentText_of_power ['+'] (by simp) (by simp) read
    · exact exponentText_of_power [] (by simp) (by simp) read
  · cases read
    exact ⟨[], .none, rfl⟩

theorem numberAt_of_unsigned {unsigned : List Char} {negative : Bool} {token : NumberToken}
    (read : (readWhole unsigned >>= fun whole => readFraction whole.2 >>= fun fraction =>
      readExponent fraction.2 >>= fun exponent =>
        pure (NumberToken.mk negative whole.1 fraction.1 exponent.1, exponent.2)) =
      some (token, rest)) :
    NumberAt ((if negative then ['-'] else []) ++ unsigned) token rest := by
  obtain ⟨⟨whole, afterWhole⟩, wholeRead, read⟩ := Option.bind_eq_some_iff.mp read
  obtain ⟨⟨digits, afterFraction⟩, fractionRead, read⟩ := Option.bind_eq_some_iff.mp read
  obtain ⟨⟨exponent, behind⟩, exponentRead, read⟩ := Option.bind_eq_some_iff.mp read
  cases read
  obtain ⟨areDigits, leading, rfl⟩ := areDigits_of_readWhole wholeRead
  obtain ⟨fractionSpelling, fraction, same⟩ := fractionText_of_readFraction fractionRead
  obtain ⟨exponentSpelling, power, rest⟩ := exponentText_of_readExponent exponentRead
  dsimp only at same rest
  rw [same, rest]
  exact .number areDigits leading fraction power

theorem numberAt_of_readNumber {token : NumberToken} (read : readNumber text = some (token, rest)) :
    NumberAt text token rest := by
  unfold readNumber at read
  dsimp only at read
  split at read
  · exact numberAt_of_unsigned read
  · exact numberAt_of_unsigned read

theorem mem_escapes_of_escape? {mark char : Char} (known : escape? mark = some char) :
    (mark, char) ∈ escapes := by
  unfold escape? at known
  split at known
  all_goals cases known
  all_goals decide

theorem partsAt_of_readString {parts : List StringPart}
    (read : readString text = some (parts, rest)) : PartsAt text parts rest := by
  induction text using readString.induct generalizing parts with
  | case1 => cases read
  | case2 behind =>
    cases read
    exact .close
  | case3 first second third fourth behind ih =>
    rw [readString] at read
    obtain ⟨code, value, read⟩ := Option.bind_eq_some_iff.mp read
    obtain ⟨⟨others, remaining⟩, string, read⟩ := Option.bind_eq_some_iff.mp read
    cases read
    have four : [first, second, third, fourth].length = 4 := rfl
    exact .unit four value (ih string)
  | case4 mark behind noUnit ih =>
    rw [readString] at read
    · obtain ⟨char, known, read⟩ := Option.bind_eq_some_iff.mp read
      obtain ⟨⟨others, remaining⟩, string, read⟩ := Option.bind_eq_some_iff.mp read
      cases read
      exact .escape (mem_escapes_of_escape? known) (ih string)
    · exact noUnit
  | case5 char behind noQuote noUnit noEscape control =>
    rw [readString, if_pos control] at read
    · cases read
    all_goals assumption
  | case6 char behind noQuote noUnit noEscape printable ih =>
    rw [readString, if_neg printable] at read
    · obtain ⟨⟨others, remaining⟩, string, read⟩ := Option.bind_eq_some_iff.mp read
      cases read
      have escape : char ≠ '\\' := by
        rintro rfl
        cases behind with
        | nil => cases string
        | cons mark behind => exact noEscape mark behind rfl rfl
      exact .plain (Nat.not_lt.mp printable) noQuote escape (ih string)
    all_goals assumption

theorem exists_of_readKey {key : List StringPart} (read : readKey text = some (key, rest)) :
    ∃ start afterKey, BlanksAt text ('"' :: start) ∧ PartsAt start key afterKey ∧
      BlanksAt afterKey (':' :: rest) := by
  have before := blanksAt_skipSpace text
  unfold readKey at read
  split at read
  · next start quote =>
    rw [quote] at before
    obtain ⟨⟨parts, afterKey⟩, string, read⟩ := Option.bind_eq_some_iff.mp read
    dsimp only at read
    have colon := blanksAt_skipSpace afterKey
    split at read
    · next remaining stands =>
      cases read
      rw [stands] at colon
      exact ⟨start, afterKey, before, partsAt_of_readString string, colon⟩
    · cases read
  · cases read

/-- Within so many steps, what is read stands in the text as the grammar has it. -/
structure KeepsGrammar (steps : Nat) : Prop where
  value : ∀ text source rest, readValue steps text = some (source, rest) →
    ∃ start, BlanksAt text start ∧ ValueAt start source rest
  items : ∀ text items rest, readItems steps text = some (items, rest) →
    ∃ start, BlanksAt text start ∧ ItemsAt start items rest
  members : ∀ text members rest, readMembers steps text = some (members, rest) →
    ∃ start, BlanksAt text start ∧ MembersAt start members rest

variable {steps : Nat}

theorem KeepsGrammar.element (keeps : KeepsGrammar steps) {source : Source}
    {behind start : List Char} (read : readValue steps text = some (source, behind))
    (after : BlanksAt behind start) :
    ElementAt text source start := by
  obtain ⟨front, before, value⟩ := keeps.value _ _ _ read
  exact .element before value after

theorem KeepsGrammar.member (keeps : KeepsGrammar steps) {source : Source} {key : List StringPart}
    {afterKey behind start : List Char} (readKey : readKey text = some (key, afterKey))
    (read : readValue steps afterKey = some (source, behind)) (after : BlanksAt behind start) :
    MemberAt text (key, source) start := by
  obtain ⟨front, afterString, before, parts, colon⟩ := exists_of_readKey readKey
  exact .member before parts colon (keeps.element read after)

theorem KeepsGrammar.readValue (keeps : KeepsGrammar steps) {source : Source}
    (read : Source.readValue (steps + 1) text = some (source, rest)) :
    ∃ start, BlanksAt text start ∧ ValueAt start source rest := by
  refine ⟨skipSpace text, blanksAt_skipSpace text, ?_⟩
  rw [Source.readValue] at read
  split at read
  · next same =>
    cases read
    rw [same]
    exact .null
  · next same =>
    cases read
    rw [same]
    exact .true
  · next same =>
    cases read
    rw [same]
    exact .false
  · next start same =>
    obtain ⟨⟨parts, remaining⟩, string, read⟩ := Option.bind_eq_some_iff.mp read
    cases read
    rw [same]
    exact .string (partsAt_of_readString string)
  · next start same =>
    rw [same]
    have blanks := blanksAt_skipSpace start
    split at read
    · next remaining close =>
      cases read
      rw [close] at blanks
      exact .emptyArray blanks
    · obtain ⟨⟨item, afterItem⟩, first, read⟩ := Option.bind_eq_some_iff.mp read
      obtain ⟨⟨items, remaining⟩, others, read⟩ := Option.bind_eq_some_iff.mp read
      cases read
      obtain ⟨behind, after, itemsAt⟩ := keeps.items _ _ _ others
      exact .array (keeps.element first after) itemsAt
  · next start same =>
    rw [same]
    have blanks := blanksAt_skipSpace start
    split at read
    · next remaining close =>
      cases read
      rw [close] at blanks
      exact .emptyObject blanks
    · obtain ⟨⟨key, afterKey⟩, named, read⟩ := Option.bind_eq_some_iff.mp read
      obtain ⟨⟨value, afterValue⟩, first, read⟩ := Option.bind_eq_some_iff.mp read
      obtain ⟨⟨members, remaining⟩, others, read⟩ := Option.bind_eq_some_iff.mp read
      cases read
      obtain ⟨behind, after, membersAt⟩ := keeps.members _ _ _ others
      exact .object (keeps.member named first after) membersAt
  · obtain ⟨⟨token, remaining⟩, number, read⟩ := Option.bind_eq_some_iff.mp read
    cases read
    exact .number (numberAt_of_readNumber number)

theorem KeepsGrammar.readItems (keeps : KeepsGrammar steps) {items : List Source}
    (read : Source.readItems (steps + 1) text = some (items, rest)) :
    ∃ start, BlanksAt text start ∧ ItemsAt start items rest := by
  refine ⟨skipSpace text, blanksAt_skipSpace text, ?_⟩
  rw [Source.readItems] at read
  split at read
  · next same =>
    cases read
    rw [same]
    exact .close
  · next start same =>
    obtain ⟨⟨item, afterItem⟩, first, read⟩ := Option.bind_eq_some_iff.mp read
    obtain ⟨⟨items, remaining⟩, others, read⟩ := Option.bind_eq_some_iff.mp read
    cases read
    obtain ⟨behind, after, itemsAt⟩ := keeps.items _ _ _ others
    rw [same]
    exact .next (keeps.element first after) itemsAt
  · cases read

theorem KeepsGrammar.readMembers (keeps : KeepsGrammar steps)
    {members : List (List StringPart × Source)}
    (read : Source.readMembers (steps + 1) text = some (members, rest)) :
    ∃ start, BlanksAt text start ∧ MembersAt start members rest := by
  refine ⟨skipSpace text, blanksAt_skipSpace text, ?_⟩
  rw [Source.readMembers] at read
  split at read
  · next same =>
    cases read
    rw [same]
    exact .close
  · next start same =>
    obtain ⟨⟨key, afterKey⟩, named, read⟩ := Option.bind_eq_some_iff.mp read
    obtain ⟨⟨value, afterValue⟩, first, read⟩ := Option.bind_eq_some_iff.mp read
    obtain ⟨⟨members, remaining⟩, others, read⟩ := Option.bind_eq_some_iff.mp read
    cases read
    obtain ⟨behind, after, membersAt⟩ := keeps.members _ _ _ others
    rw [same]
    exact .next (keeps.member named first after) membersAt
  · cases read

theorem keepsGrammar (steps : Nat) : KeepsGrammar steps := by
  induction steps with
  | zero =>
    refine ⟨?_, ?_, ?_⟩
    · intro text source rest read
      cases read
    · intro text items rest read
      cases read
    · intro text members rest read
      cases read
  | succ steps keeps =>
    exact ⟨fun _ _ _ => keeps.readValue, fun _ _ _ => keeps.readItems,
      fun _ _ _ => keeps.readMembers⟩

/-- Texts are read by the grammar. -/
theorem isTextOf_of_read? {source : Source} (read : read? text = some source) :
    source.IsTextOf text := by
  obtain ⟨⟨found, rest⟩, value, read⟩ := Option.bind_eq_some_iff.mp read
  dsimp only at read
  split at read
  · next ended =>
    cases read
    have after := blanksAt_skipSpace rest
    rw [List.isEmpty_iff.mp ended] at after
    exact (keepsGrammar _).element value after
  · cases read

end Source

end RowProjection.Json
