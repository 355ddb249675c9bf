import RowProjection.Calendar.Time
import RowProjection.Json.Basic
import RowProjection.Number.Decimal
import RowProjection.Schema.Basic

namespace RowProjection

/-- A runtime value. -/
inductive Value where
  | null
  | boolean (value : Bool)
  | tinyInt (value : Int8)
  | smallInt (value : Int16)
  | int (value : Int32)
  | bigInt (value : Int64)
  | decimal (value : Number.Decimal)
  | real (value : Number.Single)
  | double (value : Number.Double)
  | varchar (value : String)
  | date (value : Calendar.Date)
  | time (value : Calendar.Time)
  | timestamp (value : Calendar.Timestamp)
  | timestampTz (value : Calendar.OffsetTimestamp)
  | json (tree : Json)
  /-- Entries in the order of their keys. -/
  | map (entries : List (String × Value))
  /-- One value for each field of a composite type, by position. -/
  | row (values : List Value)
  /-- A record: a schema and one value for each of its fields. -/
  | record (schema : Schema) (values : List Value)
  /-- An object of a native type: named values in order. -/
  | object (typeName : String) (fields : List (String × Value))
  | bytes (content : List UInt8)
  deriving Repr

instance : Inhabited Value :=
  ⟨.null⟩

namespace Value

def isNull : Value → Bool
  | null => true
  | _ => false

/-- The kind of a value, as messages name it. -/
def kindName : Value → String
  | null => "NULL"
  | boolean _ => "BOOLEAN"
  | tinyInt _ => "TINYINT"
  | smallInt _ => "SMALLINT"
  | int _ => "INTEGER"
  | bigInt _ => "BIGINT"
  | decimal _ => "DECIMAL"
  | real _ => "REAL"
  | double _ => "DOUBLE"
  | varchar _ => "VARCHAR"
  | date _ => "DATE"
  | time _ => "TIME"
  | timestamp _ => "TIMESTAMP"
  | timestampTz _ => "TIMESTAMP WITH TIME ZONE"
  | json _ => "JSON"
  | map _ => "MAP"
  | row _ => "ROW"
  | record _ _ => "COMPACT RECORD"
  | object _ _ => "OBJECT"
  | bytes _ => "BYTES"

/-- A map with these entries; of a repeated key the last counts. -/
def ofEntries (entries : List (String × Value)) : Value :=
  map (KeyOrder.ofList entries)

/-- The value at a position, where what is missing at the end reads as null. -/
def nth (values : List Value) (index : Nat) : Value :=
  values.getD index null

/-- The first value of a name. -/
def named? (fields : List (String × Value)) (name : String) : Option Value :=
  (fields.find? (·.1 = name)).map (·.2)

end Value

/-- A row of the query engine: one value for each column. -/
structure Row where
  values : List Value
  deriving Repr

namespace Row

/-- The value of a column; columns past the end read as null. -/
def get (row : Row) (ordinal : Nat) : Value :=
  Value.nth row.values ordinal

end Row

end RowProjection
