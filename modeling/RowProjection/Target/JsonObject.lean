import RowProjection.Target.Basic
import RowProjection.Value.Convert

namespace RowProjection

/-- The target of sides that are JSON objects. The text of the object grows by one member with each
write, in the order of the writes. -/
structure JsonTarget where
  lifecycle : Lifecycle
  text : List Char
  hasMembers : Bool
  deriving Repr

namespace JsonForm

/-- The column type of a form that converts its values; a text or a tree is written without. -/
def dataType : JsonForm → DataType
  | boolean => .boolean
  | tinyInt => .tinyInt
  | smallInt => .smallInt
  | int => .int
  | bigInt => .bigInt
  | real => .real
  | double | text | object => .double

/-- A scalar as a token, with floats at their own precision; anything else as its JSON tree. -/
def scalarToken : Value → List Char
  | .real value => value.json
  | value => value.toJson.chars

/-- A value of an untyped column as a token: trees, maps, booleans and numbers as they are,
anything else as a string of its text. -/
def objectToken : Value → List Char
  | .json tree => tree.chars
  | .map entries => (Value.map entries).toJson.chars
  | .boolean value => scalarToken (.boolean value)
  | .tinyInt value => scalarToken (.tinyInt value)
  | .smallInt value => scalarToken (.smallInt value)
  | .int value => scalarToken (.int value)
  | .bigInt value => scalarToken (.bigInt value)
  | .real value => scalarToken (.real value)
  | .double value => scalarToken (.double value)
  | value => Json.quoted value.text

/-- The token of a value in a form. Null is null in every form. -/
def token (form : JsonForm) (value : Value) : Except Failure (List Char) :=
  if value.isNull then .ok Json.null.chars
  else
    match form with
    | text => .ok (Json.quoted value.text)
    | object => .ok (objectToken value)
    | _ => (value.convertTo form.dataType).map scalarToken

end JsonForm

namespace JsonTarget

def format : String := "JSON"

def new : JsonTarget :=
  ⟨.uninitialized, [], false⟩

/-- Only fields can be written, with columns of the types that have a JSON form. -/
def injector (path : Option String) (type : DataType) : Except Error Injector :=
  match path with
  | none => .error (.wholeValue format)
  | some path =>
    match JsonForm.ofFamily? type.family with
    | some form => .ok ⟨some path, .json form⟩
    | none => .error (.unsupportedType type)

def start (_ : JsonTarget) : JsonTarget :=
  ⟨.accumulating, ['\x7b'], false⟩

/-- Writes the name of a member, with a comma before it unless it is the first. -/
def writeName (target : JsonTarget) (name : String) : JsonTarget :=
  { target with
    text := target.text ++ (if target.hasMembers then [','] else []) ++ Json.quoted name ++ [':']
    hasMembers := true }

/-- Writes a member. The name is written before the value is converted. -/
def write (target : JsonTarget) (injector : Injector) (value : Value) : Outcome JsonTarget Unit :=
  match target.lifecycle.checkWrite format with
  | .error failure => (.error failure, target)
  | .ok () =>
    match injector.operation, injector.path with
    | .json form, some path =>
      let named := target.writeName path
      match form.token value with
      | .error failure => (.error failure, named)
      | .ok token => (.ok (), { named with text := named.text ++ token })
    | operation, _ => (.error (.breach (.foreignInjector format operation)), target)

def conclude (target : JsonTarget) : Outcome JsonTarget Value :=
  match target.lifecycle.checkConclude format with
  | .error failure => (.error failure, target)
  | .ok () =>
    let text := target.text ++ ['\x7d']
    (.ok (.bytes (Text.Utf8.bytes (String.ofList text))),
      { target with lifecycle := .uninitialized, text })

instance : Target JsonTarget where
  format _ := format
  injector _ := injector
  start := start
  write := write
  conclude := conclude

end JsonTarget

end RowProjection
