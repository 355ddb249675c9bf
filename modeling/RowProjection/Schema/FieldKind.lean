import RowProjection.DataType

namespace RowProjection

/-- What a field of a record stores. Columns fill nullable scalars, times, texts, decimals and
nested records; fields of the other kinds belong to other writers of the same records. -/
inductive FieldKind where
  | string
  | nullableBoolean
  | nullableInt8
  | nullableInt16
  | nullableInt32
  | nullableInt64
  | decimal
  | nullableFloat32
  | nullableFloat64
  | date
  | time
  | timestamp
  | timestampWithTimezone
  | compact
  | boolean
  | int8
  | int16
  | int32
  | int64
  | float32
  | float64
  | arrayOfString
  | arrayOfInt64
  | arrayOfCompact
  deriving DecidableEq, Repr

namespace FieldKind

def text : FieldKind → String
  | string => "STRING"
  | nullableBoolean => "NULLABLE_BOOLEAN"
  | nullableInt8 => "NULLABLE_INT8"
  | nullableInt16 => "NULLABLE_INT16"
  | nullableInt32 => "NULLABLE_INT32"
  | nullableInt64 => "NULLABLE_INT64"
  | decimal => "DECIMAL"
  | nullableFloat32 => "NULLABLE_FLOAT32"
  | nullableFloat64 => "NULLABLE_FLOAT64"
  | date => "DATE"
  | time => "TIME"
  | timestamp => "TIMESTAMP"
  | timestampWithTimezone => "TIMESTAMP_WITH_TIMEZONE"
  | compact => "COMPACT"
  | boolean => "BOOLEAN"
  | int8 => "INT8"
  | int16 => "INT16"
  | int32 => "INT32"
  | int64 => "INT64"
  | float32 => "FLOAT32"
  | float64 => "FLOAT64"
  | arrayOfString => "ARRAY_OF_STRING"
  | arrayOfInt64 => "ARRAY_OF_INT64"
  | arrayOfCompact => "ARRAY_OF_COMPACT"

/-- The name under which a kind is declared. -/
def name : FieldKind → String
  | string => "String"
  | nullableBoolean => "NullableBoolean"
  | nullableInt8 => "NullableInt8"
  | nullableInt16 => "NullableInt16"
  | nullableInt32 => "NullableInt32"
  | nullableInt64 => "NullableInt64"
  | decimal => "Decimal"
  | nullableFloat32 => "NullableFloat32"
  | nullableFloat64 => "NullableFloat64"
  | date => "Date"
  | time => "Time"
  | timestamp => "Timestamp"
  | timestampWithTimezone => "TimestampWithTimezone"
  | compact => "Compact"
  | boolean => "Boolean"
  | int8 => "Int8"
  | int16 => "Int16"
  | int32 => "Int32"
  | int64 => "Int64"
  | float32 => "Float32"
  | float64 => "Float64"
  | arrayOfString => "ArrayOfString"
  | arrayOfInt64 => "ArrayOfInt64"
  | arrayOfCompact => "ArrayOfCompact"

/-- All kinds, in the order of their tags. -/
def all : List FieldKind :=
  [string, nullableBoolean, nullableInt8, nullableInt16, nullableInt32, nullableInt64, decimal,
   nullableFloat32, nullableFloat64, date, time, timestamp, timestampWithTimezone, compact,
   boolean, int8, int16, int32, int64, float32, float64, arrayOfString, arrayOfInt64,
   arrayOfCompact]

/-- The number of a kind in the layout of a schema. -/
def tag (kind : FieldKind) : UInt8 :=
  UInt8.ofNat (all.idxOf kind)

/-- The kind and reference that store a column of a type. -/
def ofDataType? : DataType → Option (FieldKind × Option String)
  | .varchar => some (string, none)
  | .boolean => some (nullableBoolean, none)
  | .tinyInt => some (nullableInt8, none)
  | .smallInt => some (nullableInt16, none)
  | .int => some (nullableInt32, none)
  | .bigInt => some (nullableInt64, none)
  | .decimal => some (decimal, none)
  | .real => some (nullableFloat32, none)
  | .double => some (nullableFloat64, none)
  | .time => some (time, none)
  | .date => some (date, none)
  | .timestamp => some (timestamp, none)
  | .timestampTz => some (timestampWithTimezone, none)
  | .custom type => some (compact, some type.name)
  | .object | .json | .null => none

/-- The type of the values of a field. A nested record is of the custom type it refers to, owned
by `owner`; arrays have no type. -/
def dataType? (kind : FieldKind) (reference : Option String) (owner : TypeKind) :
    Option DataType :=
  match kind with
  | string => some .varchar
  | nullableBoolean | boolean => some .boolean
  | nullableInt8 | int8 => some .tinyInt
  | nullableInt16 | int16 => some .smallInt
  | nullableInt32 | int32 => some .int
  | nullableInt64 | int64 => some .bigInt
  | decimal => some .decimal
  | nullableFloat32 | float32 => some .real
  | nullableFloat64 | float64 => some .double
  | date => some .date
  | time => some .time
  | timestamp => some .timestamp
  | timestampWithTimezone => some .timestampTz
  | compact => reference.map fun name => .custom ⟨name, owner⟩
  | arrayOfString | arrayOfInt64 | arrayOfCompact => none

/-- Whether columns can be written to fields of this kind. -/
def isColumnKind : FieldKind → Bool
  | string | nullableBoolean | nullableInt8 | nullableInt16 | nullableInt32 | nullableInt64
  | decimal | nullableFloat32 | nullableFloat64 | date | time | timestamp
  | timestampWithTimezone | compact => true
  | boolean | int8 | int16 | int32 | int64 | float32 | float64
  | arrayOfString | arrayOfInt64 | arrayOfCompact => false

theorem getElem?_tag (kind : FieldKind) : all[kind.tag.toNat]? = some kind := by
  cases kind <;> rfl

theorem tag_injective {left right : FieldKind} (same : left.tag = right.tag) : left = right :=
  Option.some.inj (by rw [← getElem?_tag left, same, getElem?_tag right])

end FieldKind

end RowProjection
