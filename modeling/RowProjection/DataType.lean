namespace RowProjection

/-- Who owns the values of a user-declared type. -/
inductive TypeKind where
  | native
  | compact
  | portable
  deriving DecidableEq, Repr

namespace TypeKind

def text : TypeKind → String
  | native => "NATIVE"
  | compact => "COMPACT"
  | portable => "PORTABLE"

end TypeKind

/-- A user-declared composite type, by name; its fields are found in a catalog. -/
structure CustomType where
  name : String
  kind : TypeKind
  deriving DecidableEq, Repr

/-- The type of a column. -/
inductive DataType where
  | varchar
  | boolean
  | tinyInt
  | smallInt
  | int
  | bigInt
  | decimal
  | real
  | double
  | time
  | date
  | timestamp
  | timestampTz
  | object
  | json
  | null
  | custom (type : CustomType)
  deriving DecidableEq, Repr

/-- Types that are written in the same way. -/
inductive TypeFamily where
  | varchar
  | boolean
  | tinyInt
  | smallInt
  | integer
  | bigInt
  | decimal
  | real
  | double
  | time
  | date
  | timestamp
  | timestampWithTimeZone
  | object
  | json
  | null
  deriving DecidableEq, Repr

namespace TypeFamily

def name : TypeFamily → String
  | varchar => "Varchar"
  | boolean => "Boolean"
  | tinyInt => "TinyInt"
  | smallInt => "SmallInt"
  | integer => "Integer"
  | bigInt => "BigInt"
  | decimal => "Decimal"
  | real => "Real"
  | double => "Double"
  | time => "Time"
  | date => "Date"
  | timestamp => "Timestamp"
  | timestampWithTimeZone => "TimestampWithTimeZone"
  | object => "Object"
  | json => "Json"
  | null => "Null"

end TypeFamily

namespace DataType

def text : DataType → String
  | varchar => "VARCHAR"
  | boolean => "BOOLEAN"
  | tinyInt => "TINYINT"
  | smallInt => "SMALLINT"
  | int => "INTEGER"
  | bigInt => "BIGINT"
  | decimal => "DECIMAL"
  | real => "REAL"
  | double => "DOUBLE"
  | time => "TIME"
  | date => "DATE"
  | timestamp => "TIMESTAMP"
  | timestampTz => "TIMESTAMP WITH TIME ZONE"
  | object => "OBJECT"
  | json => "JSON"
  | null => "NULL"
  | custom type => type.name

/-- The family of a type; user-declared types are objects. -/
def family : DataType → TypeFamily
  | varchar => .varchar
  | boolean => .boolean
  | tinyInt => .tinyInt
  | smallInt => .smallInt
  | int => .integer
  | bigInt => .bigInt
  | decimal => .decimal
  | real => .real
  | double => .double
  | time => .time
  | date => .date
  | timestamp => .timestamp
  | timestampTz => .timestampWithTimeZone
  | object => .object
  | json => .json
  | null => .null
  | custom _ => .object

/-- The user-declared type, if it is one. -/
def custom? : DataType → Option CustomType
  | custom type => some type
  | _ => none

end DataType

end RowProjection
