import RowProjection.Descriptor.Forms
import RowProjection.Proofs.Descriptor.Laws

namespace RowProjection

open Descriptor Form Members

theorem TypeKind.lawful_form : TypeKind.form.Lawful := by
  refine lawful_enumeration (fun kind => ?_) (by decide) (by decide)
  cases kind <;> decide

theorem CustomType.lawful_form : CustomType.form.Lawful := by
  have members := lawful_cons "name" lawful_text
    (lawful_cons "kind" TypeKind.lawful_form lawful_nil)
  exact lawful_via (lawful_record members (by decide)) fun _ => rfl

theorem DataType.lawful_form : DataType.form.Lawful := by
  refine lawful_choice ?_ (by decide) (by decide) fun type => ?_
  · simp only [List.forall_mem_cons, Alternative.lawful_single, List.not_mem_nil, false_implies,
      implies_true, and_true, true_and]
    refine Alternative.lawful_content CustomType.lawful_form fun type inner held => ?_
    cases type <;> cases held
    rfl
  · cases type with
    | custom type =>
      have held : custom? (custom type) = some type := rfl
      simp only [List.exists_mem_cons_iff, Alternative.covers_content held, true_or, or_true]
    | _ => simp only [List.exists_mem_cons_iff, Alternative.covers_single, true_or, or_true]

theorem EntryPath.lawful_form : EntryPath.form.Lawful := by
  have members := lawful_cons "key" lawful_boolean
    (lawful_cons "path" (lawful_option lawful_text rfl) lawful_nil)
  refine lawful_via (lawful_record members (by decide)) fun path => ?_
  obtain ⟨side, field⟩ := path
  cases side <;> rfl

theorem TableField.lawful_form : TableField.form.Lawful := by
  have members := lawful_cons "name" lawful_text
    (lawful_cons "data_type" DataType.lawful_form
      (lawful_cons "hidden" lawful_boolean lawful_nil))
  exact lawful_via (lawful_record members (by decide)) fun _ => rfl

theorem Column.lawful_form : Column.form.Lawful := by
  have members := lawful_cons "field" TableField.lawful_form
    (lawful_cons "path" EntryPath.lawful_form lawful_nil)
  exact lawful_via (lawful_record members (by decide)) fun _ => rfl

theorem FieldKind.lawful_form : FieldKind.form.Lawful := by
  refine lawful_enumeration (fun kind => ?_) (by decide) (by decide)
  cases kind <;> decide

theorem SchemaField.lawful_form : SchemaField.form.Lawful := by
  have members := lawful_cons "name" lawful_text
    (lawful_cons "kind" FieldKind.lawful_form
      (lawful_cons "type_ref" (lawful_option lawful_text rfl) lawful_nil))
  exact lawful_via (lawful_record members (by decide)) fun _ => rfl

theorem Schema.lawful_form : Schema.form.Lawful := by
  have fields := lawful_list SchemaField.lawful_form fun field =>
    cons_occupied "name" (text_occupied field.name)
  have members := lawful_cons "name" lawful_text
    (lawful_cons "fields" fields (lawful_cons "fingerprint" lawful_word lawful_nil))
  exact lawful_via (lawful_record members (by decide)) fun _ => rfl

theorem TargetDescriptor.lawful_form : TargetDescriptor.form.Lawful := by
  have members := lawful_cons "type_name" lawful_text lawful_nil
  have record := lawful_record members (by decide)
  refine lawful_choice ?_ (by decide) (by decide) fun target => ?_
  · simp only [List.forall_mem_cons, Alternative.lawful_single, List.not_mem_nil, false_implies,
      implies_true, and_true, true_and]
    refine Alternative.lawful_content record fun target inner held => ?_
    cases target <;> cases held
    rfl
  · cases target with
    | compact name =>
      have held : compact? (compact name) = some (name, ()) := rfl
      simp only [List.exists_mem_cons_iff, Alternative.covers_content held, true_or, or_true]
    | _ => simp only [List.exists_mem_cons_iff, Alternative.covers_single, true_or, or_true]

theorem Supplier.lawful_form : Supplier.form.Lawful := by
  have columns := lawful_list Column.lawful_form fun column =>
    cons_occupied "field" (cons_occupied "name" (text_occupied column.field.name))
  have members := lawful_cons "fields" columns
    (lawful_cons "key_descriptor" TargetDescriptor.lawful_form
      (lawful_cons "value_descriptor" TargetDescriptor.lawful_form
        (lawful_cons "fail_on_nulls" lawful_boolean lawful_nil)))
  exact lawful_via (lawful_record members (by decide)) fun _ => rfl

namespace Supplier

/-- A supplier is received for one that was sent, by either form. -/
inductive ReceivedFor (sent received : Supplier) : Prop where
  | text (read : form.readJson? (form.writeJson sent) = some received)
  | bytes (trailing : List UInt8) (short : (form.bytes sent).length < 2 ^ 64)
      (read : form.readBytes? (form.bytes sent ++ trailing) = some received)

theorem ReceivedFor.eq {sent received : Supplier} (arrived : ReceivedFor sent received) :
    received = sent := by
  have ships := lawful_form.ships sent
  cases arrived with
  | text read => exact Option.some.inj (read.symm.trans ships.json)
  | bytes trailing short read =>
    exact Option.some.inj (read.symm.trans (ships.bytes trailing short))

/-- Suppliers and schemas arrive as they were sent. A projector that is built from what arrives
answers all rows as one that is built from what was sent, or neither is built, for one error. -/
theorem received_as_sent :
    (∀ supplier : Supplier, form.Ships supplier) ∧
    (∀ schema : Schema, Schema.form.Ships schema) ∧
    ∀ (sent received : Supplier), ReceivedFor sent received → ∀ (context : Context)
      (rows : List Row), (received.get context).map (·.projectAll rows) =
        (sent.get context).map (·.projectAll rows) := by
  refine ⟨lawful_form.ships, Schema.lawful_form.ships, fun sent received arrived context rows => ?_⟩
  rw [arrived.eq]

/-- Columns with a name that is escaped, a hidden one and one of a custom type. -/
def crateSupplier : Supplier where
  columns :=
    [⟨⟨"__key.n\u00e9 \"1\"", .bigInt, true⟩, ⟨.key, some "n\u00e9 \"1\""⟩⟩,
     ⟨⟨"this", .custom ⟨"Crate", .native⟩, false⟩, ⟨.value, none⟩⟩]
  key := .compact "Label"
  value := .object
  failOnNulls := true

theorem crates_received : (form.bytes crateSupplier).length < 2 ^ 64 ∧
    form.readJson? (form.writeJson crateSupplier) = some crateSupplier ∧
    ∃ received, form.readBytes? (form.bytes crateSupplier ++ [0, 1]) = some received ∧
      ∀ (context : Context) (rows : List Row), (received.get context).map (·.projectAll rows) =
        (crateSupplier.get context).map (·.projectAll rows) := by
  have short : (form.bytes crateSupplier).length < 2 ^ 64 := by decide
  have ships := received_as_sent.1 crateSupplier
  have read := ships.bytes [0, 1] short
  exact ⟨short, ships.json, crateSupplier, read,
    received_as_sent.2.2 _ _ (.bytes [0, 1] short read)⟩

end Supplier

end RowProjection
