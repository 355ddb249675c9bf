import RowProjection.Json.Basic
import RowProjection.Number.FloatText
import RowProjection.Text.Hexadecimal

namespace RowProjection.Json

/-- How a character stands in a string: quotes, backslashes and control characters are escaped. -/
def escaped (char : Char) : List Char :=
  match char with
  | '"' => ['\\', '"']
  | '\\' => ['\\', '\\']
  | '\x08' => ['\\', 'b']
  | '\t' => ['\\', 't']
  | '\n' => ['\\', 'n']
  | '\x0c' => ['\\', 'f']
  | '\r' => ['\\', 'r']
  | _ =>
    if char.toNat < 0x20 then
      '\\' :: 'u' :: Text.Hexadecimal.padded 4 char.toNat
    else [char]

/-- A string token. -/
def quoted (text : String) : List Char :=
  '"' :: (text.toList.flatMap escaped ++ ['"'])

def booleanChars (value : Bool) : List Char :=
  if value then ['t', 'r', 'u', 'e'] else ['f', 'a', 'l', 's', 'e']

mutual

/-- The text of a tree, without blanks. -/
def chars : Json → List Char
  | null => ['n', 'u', 'l', 'l']
  | boolean value => booleanChars value
  | integer value => Text.Digits.ofInt value
  | double value => value.json
  | string value => quoted value
  | array [] => ['[', ']']
  | array (item :: rest) => '[' :: (chars item ++ moreItems rest)
  | object [] => ['\x7b', '\x7d']
  | object ((key, value) :: rest) =>
    '\x7b' :: (quoted key ++ ':' :: (chars value ++ moreMembers rest))

/-- The items of an array behind the first, and its end. -/
def moreItems : List Json → List Char
  | [] => [']']
  | item :: rest => ',' :: (chars item ++ moreItems rest)

/-- The members of an object behind the first, and its end. -/
def moreMembers : List (String × Json) → List Char
  | [] => ['\x7d']
  | (key, value) :: rest => ',' :: (quoted key ++ ':' :: (chars value ++ moreMembers rest))

end

def text (tree : Json) : String :=
  String.ofList tree.chars

end RowProjection.Json
