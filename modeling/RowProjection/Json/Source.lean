import RowProjection.Text.Hexadecimal
import RowProjection.Text.Scan

/-!
JSON text taken apart by its grammar alone: members stand in the order of the text, repeated ones
included, and numbers and strings are not yet interpreted.
-/

namespace RowProjection.Json

/-- A number as written. -/
structure NumberToken where
  negative : Bool
  whole : List Char
  fraction : List Char
  /-- The sign and digits of the exponent. -/
  exponent : Option (Bool × List Char)
  deriving DecidableEq, Repr

/-- A part of a string: a character, or a code unit written as four hexadecimal digits. -/
inductive StringPart where
  | plain (char : Char)
  | unit (code : Nat)
  deriving DecidableEq, Repr

/-- What a JSON text holds. -/
inductive Source where
  | null
  | boolean (value : Bool)
  | number (token : NumberToken)
  | string (parts : List StringPart)
  | array (items : List Source)
  | object (members : List (List StringPart × Source))
  deriving Repr

namespace Source

/-- The blanks between tokens. -/
def isSpace (char : Char) : Bool :=
  char == ' ' || char == '\t' || char == '\n' || char == '\r'

def skipSpace (text : List Char) : List Char :=
  text.dropWhile isSpace

/-- The character of an escape other than a code unit. -/
def escape? (char : Char) : Option Char :=
  match char with
  | '"' | '\\' | '/' => some char
  | 'b' => some '\x08'
  | 'f' => some '\x0c'
  | 'n' => some '\n'
  | 'r' => some '\r'
  | 't' => some '\t'
  | _ => none

/-- The parts of a string up to its closing quote, and the text behind it. -/
def readString : List Char → Option (List StringPart × List Char)
  | [] => none
  | '"' :: rest => some ([], rest)
  | '\\' :: 'u' :: first :: second :: third :: fourth :: rest => do
    let code ← Text.Hexadecimal.value? [first, second, third, fourth]
    let (parts, remaining) ← readString rest
    return (.unit code :: parts, remaining)
  | '\\' :: mark :: rest => do
    let char ← escape? mark
    let (parts, remaining) ← readString rest
    return (.plain char :: parts, remaining)
  | char :: rest =>
    if char.toNat < 0x20 then none
    else do
      let (parts, remaining) ← readString rest
      return (.plain char :: parts, remaining)

/-- The digits before the point: a zero stands alone. -/
def readWhole (text : List Char) : Option (List Char × List Char) :=
  match Text.Digits.split text with
  | ([], _) => none
  | ('0' :: _ :: _, _) => none
  | (digits, rest) => some (digits, rest)

/-- The digits behind a point, if there is one. -/
def readFraction (text : List Char) : Option (List Char × List Char) :=
  match text with
  | '.' :: rest => Text.Scan.allDigits rest
  | _ => some ([], text)

/-- An exponent, if there is one. -/
def readExponent (text : List Char) : Option (Option (Bool × List Char) × List Char) :=
  let signed (rest : List Char) : Option (Option (Bool × List Char) × List Char) := do
    let (negative, unsigned) := match rest with
      | '-' :: digits => (true, digits)
      | '+' :: digits => (false, digits)
      | _ => (false, rest)
    let (digits, remaining) ← Text.Scan.allDigits unsigned
    return (some (negative, digits), remaining)
  match text with
  | 'e' :: rest => signed rest
  | 'E' :: rest => signed rest
  | _ => some (none, text)

def readNumber (text : List Char) : Option (NumberToken × List Char) := do
  let (negative, unsigned) := match text with
    | '-' :: rest => (true, rest)
    | _ => (false, text)
  let (whole, afterWhole) ← readWhole unsigned
  let (fraction, afterFraction) ← readFraction afterWhole
  let (exponent, rest) ← readExponent afterFraction
  return (⟨negative, whole, fraction, exponent⟩, rest)

/-- The key of a member and the text of its value. -/
def readKey (text : List Char) : Option (List StringPart × List Char) :=
  match skipSpace text with
  | '"' :: rest => do
    let (key, afterKey) ← readString rest
    match skipSpace afterKey with
    | ':' :: remaining => some (key, remaining)
    | _ => none
  | _ => none

mutual

/-- A value in front of a text. Every step into a value takes a character, so as many steps as
there are characters are enough. -/
def readValue : Nat → List Char → Option (Source × List Char)
  | 0, _ => none
  | steps + 1, text =>
    match skipSpace text with
    | 'n' :: 'u' :: 'l' :: 'l' :: rest => some (null, rest)
    | 't' :: 'r' :: 'u' :: 'e' :: rest => some (boolean true, rest)
    | 'f' :: 'a' :: 'l' :: 's' :: 'e' :: rest => some (boolean false, rest)
    | '"' :: rest => do
      let (parts, remaining) ← readString rest
      return (string parts, remaining)
    | '[' :: rest =>
      match skipSpace rest with
      | ']' :: remaining => some (array [], remaining)
      | _ => do
        let (item, afterItem) ← readValue steps rest
        let (items, remaining) ← readItems steps afterItem
        return (array (item :: items), remaining)
    | '\x7b' :: rest =>
      match skipSpace rest with
      | '\x7d' :: remaining => some (object [], remaining)
      | _ => do
        let (key, afterKey) ← readKey rest
        let (value, afterValue) ← readValue steps afterKey
        let (members, remaining) ← readMembers steps afterValue
        return (object ((key, value) :: members), remaining)
    | start => do
      let (token, remaining) ← readNumber start
      return (number token, remaining)

/-- The items of an array behind the first, up to its end. -/
def readItems : Nat → List Char → Option (List Source × List Char)
  | 0, _ => none
  | steps + 1, text =>
    match skipSpace text with
    | ']' :: rest => some ([], rest)
    | ',' :: rest => do
      let (item, afterItem) ← readValue steps rest
      let (items, remaining) ← readItems steps afterItem
      return (item :: items, remaining)
    | _ => none

/-- The members of an object behind the first, up to its end. -/
def readMembers : Nat → List Char → Option (List (List StringPart × Source) × List Char)
  | 0, _ => none
  | steps + 1, text =>
    match skipSpace text with
    | '\x7d' :: rest => some ([], rest)
    | ',' :: rest => do
      let (key, afterKey) ← readKey rest
      let (value, afterValue) ← readValue steps afterKey
      let (members, remaining) ← readMembers steps afterValue
      return ((key, value) :: members, remaining)
    | _ => none

end

/-- What a whole text holds, with blanks around it. -/
def read? (text : List Char) : Option Source := do
  let (source, rest) ← readValue (text.length + 1) text
  if (skipSpace rest).isEmpty then some source else none

mutual

/-- How many arrays and objects are open at once. -/
def depth : Source → Nat
  | array items => itemsDepth items + 1
  | object members => membersDepth members + 1
  | _ => 0

def itemsDepth : List Source → Nat
  | [] => 0
  | item :: rest => max (depth item) (itemsDepth rest)

def membersDepth : List (List StringPart × Source) → Nat
  | [] => 0
  | (_, value) :: rest => max (depth value) (membersDepth rest)

end

end Source

namespace StringPart

/-- The characters of the parts. Two code units of a surrogate pair are one character; a surrogate
that stands alone is no character. -/
def chars? : List StringPart → Option (List Char)
  | [] => some []
  | .plain char :: rest => (chars? rest).map (char :: ·)
  | .unit high :: .unit low :: rest =>
    if 0xD800 ≤ high ∧ high < 0xDC00 then
      if 0xDC00 ≤ low ∧ low < 0xE000 then
        (chars? rest).map (.ofNat (0x10000 + (high - 0xD800) * 0x400 + (low - 0xDC00)) :: ·)
      else none
    else if 0xDC00 ≤ high ∧ high < 0xE000 then none
    else (chars? (.unit low :: rest)).map (.ofNat high :: ·)
  | .unit code :: rest =>
    if 0xD800 ≤ code ∧ code < 0xE000 then none else (chars? rest).map (.ofNat code :: ·)

def text? (parts : List StringPart) : Option String :=
  (chars? parts).map String.ofList

end StringPart

end RowProjection.Json
