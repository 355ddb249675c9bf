import RowProjection.Descriptor.Form
import RowProjection.Projector.Supplier

namespace RowProjection

open Descriptor

namespace TypeKind

def form : Form TypeKind :=
  .choice ([native, compact, portable].map fun kind => .single kind.name kind)

end TypeKind

namespace CustomType

def form : Form CustomType :=
  (Form.record (.cons "name" .text (.cons "kind" TypeKind.form .nil))).via
    (fun type => (type.name, type.kind, ()))
    (fun (name, kind, _) => ⟨name, kind⟩)

end CustomType

namespace DataType

def form : Form DataType :=
  .choice
    [.single "Varchar" varchar, .single "Boolean" boolean, .single "TinyInt" tinyInt,
     .single "SmallInt" smallInt, .single "Int" int, .single "BigInt" bigInt,
     .single "Decimal" decimal, .single "Real" real, .single "Double" double,
     .single "Time" time, .single "Date" date, .single "Timestamp" timestamp,
     .single "TimestampTz" timestampTz, .single "Object" object, .single "Json" json,
     .single "Null" null, .content "Custom" CustomType.form custom custom?]

end DataType

namespace EntryPath

def form : Form EntryPath :=
  (Form.record (.cons "key" .boolean (.cons "path" (.option .text) .nil))).via
    (fun path => (path.side == .key, path.field, ()))
    (fun (key, field, _) => ⟨if key then .key else .value, field⟩)

end EntryPath

namespace TableField

def form : Form TableField :=
  (Form.record
    (.cons "name" .text (.cons "data_type" DataType.form (.cons "hidden" .boolean .nil)))).via
    (fun field => (field.name, field.type, field.hidden, ()))
    (fun (name, type, hidden, _) => ⟨name, type, hidden⟩)

end TableField

namespace Column

def form : Form Column :=
  (Form.record (.cons "field" TableField.form (.cons "path" EntryPath.form .nil))).via
    (fun column => (column.field, column.path, ()))
    (fun (field, path, _) => ⟨field, path⟩)

end Column

namespace FieldKind

def form : Form FieldKind :=
  .choice (all.map fun kind => .single kind.name kind)

end FieldKind

namespace SchemaField

def form : Form SchemaField :=
  (Form.record
    (.cons "name" .text
      (.cons "kind" FieldKind.form (.cons "type_ref" (.option .text) .nil)))).via
    (fun field => (field.name, field.kind, field.reference, ()))
    (fun (name, kind, reference, _) => ⟨name, kind, reference⟩)

end SchemaField

namespace Schema

/-- The fingerprint is read as it was written and not taken anew. -/
def form : Form Schema :=
  (Form.record
    (.cons "name" .text
      (.cons "fields" (.list SchemaField.form) (.cons "fingerprint" .word .nil)))).via
    (fun schema => (schema.name, schema.fields, schema.fingerprint, ()))
    (fun (name, fields, fingerprint, _) => ⟨name, fields, fingerprint⟩)

end Schema

namespace TargetDescriptor

/-- The type of a compact target. -/
def compact? : TargetDescriptor → Option (String × Unit)
  | compact typeName => some (typeName, ())
  | _ => none

def form : Form TargetDescriptor :=
  .choice
    [.single "Primitive" primitive, .single "Json" json,
     .content "Compact" (.record (.cons "type_name" .text .nil)) (fun (name, _) => compact name)
       compact?,
     .single "Object" object]

end TargetDescriptor

namespace Supplier

def form : Form Supplier :=
  (Form.record
    (.cons "fields" (.list Column.form)
      (.cons "key_descriptor" TargetDescriptor.form
        (.cons "value_descriptor" TargetDescriptor.form
          (.cons "fail_on_nulls" .boolean .nil))))).via
    (fun supplier => (supplier.columns, supplier.key, supplier.value, supplier.failOnNulls, ()))
    (fun (columns, key, value, failOnNulls, _) => ⟨columns, key, value, failOnNulls⟩)

end Supplier

end RowProjection
