import RowProjection.DataType
import RowProjection.Text.Scan

/-!
Columns of a mapping, and the place of each in an entry. A place is written `__key` or `this` for
a whole side and `__key.a.b` or `this.a.b` for a field; a bare name is a field of the value.
-/

namespace RowProjection

/-- The two halves of an entry. -/
inductive Side where
  | key
  | value
  deriving DecidableEq, Repr

namespace Side

/-- The reserved name of a side. -/
def reservedName : Side → String
  | key => "__key"
  | value => "this"

end Side

/-- A place in an entry: a whole side, or a field below it. -/
structure EntryPath where
  side : Side
  field : Option String
  deriving DecidableEq, Repr

namespace EntryPath

/-- Whether no segment between points is empty. -/
def isFieldName (name : List Char) : Bool :=
  (name.splitOn '.').all fun segment => !segment.isEmpty

/-- Takes the side off the front of a column name. -/
def split (name : List Char) : Side × Option (List Char) :=
  match name with
  | ['_', '_', 'k', 'e', 'y'] => (.key, none)
  | ['t', 'h', 'i', 's'] => (.value, none)
  | '_' :: '_' :: 'k' :: 'e' :: 'y' :: '.' :: field => (.key, some field)
  | 't' :: 'h' :: 'i' :: 's' :: '.' :: field => (.value, some field)
  | field => (.value, some field)

/-- The place that a column name stands for. -/
def parse? (name : String) : Option EntryPath :=
  match split name.toList with
  | (side, none) => some ⟨side, none⟩
  | (side, some field) =>
    if isFieldName field then some ⟨side, some (String.ofList field)⟩ else none

def text (path : EntryPath) : String :=
  match path.field with
  | none => path.side.reservedName
  | some field => path.side.reservedName ++ "." ++ field

/-- Whether the path is a whole side. -/
def isTop (path : EntryPath) : Bool :=
  path.field.isNone

end EntryPath

/-- A column as the query engine sees it. -/
structure TableField where
  name : String
  type : DataType
  hidden : Bool
  deriving DecidableEq, Repr

/-- A column and its place in an entry. -/
structure Column where
  field : TableField
  path : EntryPath
  deriving DecidableEq, Repr

namespace Column

def name (column : Column) : String :=
  column.field.name

def type (column : Column) : DataType :=
  column.field.type

/-- A visible column whose place is read off its name. -/
def ofName? (name : String) (type : DataType) : Option Column :=
  (EntryPath.parse? name).map fun path => ⟨⟨name, type, false⟩, path⟩

end Column

end RowProjection
