import RowProjection.Calendar.Date
import RowProjection.Calendar.Text
import RowProjection.Calendar.Time
import RowProjection.Column
import RowProjection.Context
import RowProjection.DataType
import RowProjection.Descriptor.Form
import RowProjection.Descriptor.Forms
import RowProjection.Error
import RowProjection.Failure
import RowProjection.Json.Basic
import RowProjection.Json.Reading
import RowProjection.Json.Source
import RowProjection.Json.Text
import RowProjection.KeyOrder
import RowProjection.Number.Decimal
import RowProjection.Number.DecimalFloat
import RowProjection.Number.DecimalText
import RowProjection.Number.FloatText
import RowProjection.Number.Floating
import RowProjection.Number.Ratio
import RowProjection.Number.Shortest
import RowProjection.Options
import RowProjection.Projector.Basic
import RowProjection.Projector.Description
import RowProjection.Projector.Supplier
import RowProjection.Proofs.Calendar.Epoch
import RowProjection.Proofs.Outcome
import RowProjection.Proofs.Projector.Agreement
import RowProjection.Proofs.Projector.Reference
import RowProjection.Proofs.Projector.Restart
import RowProjection.Proofs.Record.Kinds
import RowProjection.Proofs.Record.Payload
import RowProjection.Proofs.Record.RoundTrip
import RowProjection.Proofs.Record.Typing
import RowProjection.Proofs.Schema.Resolve
import RowProjection.Proofs.Target.Compact
import RowProjection.Proofs.Target.Writes
import RowProjection.Proofs.Value.Components
import RowProjection.Proofs.Wire.Reads
import RowProjection.Proofs.Wire.Takes
import RowProjection.Record.Basic
import RowProjection.Record.Codec
import RowProjection.Record.Conversion
import RowProjection.Schema.Basic
import RowProjection.Schema.Catalog
import RowProjection.Schema.FieldKind
import RowProjection.Schema.FieldPath
import RowProjection.Schema.Fingerprint
import RowProjection.Table
import RowProjection.Target.Any
import RowProjection.Target.Basic
import RowProjection.Target.Compact
import RowProjection.Target.Converters
import RowProjection.Target.Injector
import RowProjection.Target.JsonObject
import RowProjection.Target.Object
import RowProjection.Target.Primitive
import RowProjection.Text.Blank
import RowProjection.Text.Bytes
import RowProjection.Text.Digits
import RowProjection.Text.Hexadecimal
import RowProjection.Text.Quoted
import RowProjection.Text.Scan
import RowProjection.Text.Unprintable
import RowProjection.Text.Utf8
import RowProjection.Value.Basic
import RowProjection.Value.Convert
import RowProjection.Value.Equality
import RowProjection.Value.Json
import RowProjection.Value.Text
import RowProjection.Wire.Codec
import RowProjection.Wire.Decimal
import RowProjection.Wire.Fault
import RowProjection.Wire.Word
import RowProjection.Proofs.Record.Layout
import RowProjection.Proofs.Record.Failures
import RowProjection.Proofs.Target.Progress
import RowProjection.Proofs.Projector.Failures
import RowProjection.Proofs.Number.Ratio
import RowProjection.Proofs.Number.Shortest
import RowProjection.Proofs.Json.Grammar
import RowProjection.Proofs.Json.Numbers
import RowProjection.Proofs.Json.ReadBack
import RowProjection.Proofs.Target.JsonObject
import RowProjection.Proofs.Target.FailedWrites
import RowProjection.Proofs.Json.Completeness
import RowProjection.Proofs.Schema.Declarations
import RowProjection.Proofs.Record.Acceptance
import RowProjection.Proofs.Record.Spelling
import RowProjection.Proofs.Record.Recursion
import RowProjection.Proofs.Record.Redeclared
import RowProjection.Proofs.Schema.Batch
import RowProjection.Proofs.Schema.Completeness
import RowProjection.Proofs.Record.NativeView
import RowProjection.Proofs.Record.Paths
import RowProjection.Proofs.Projector.Independence
import RowProjection.Proofs.Record.Building
import RowProjection.Proofs.Record.Ready
import RowProjection.Proofs.Projector.Breaches
import RowProjection.Proofs.Descriptor.Laws
import RowProjection.Proofs.Descriptor.Shipping
import RowProjection.Proofs.Schema.BreadthFirst
import RowProjection.Proofs.Record.LeapSeconds
import RowProjection.Proofs.Value.Depth
import RowProjection.Proofs.Value.Objects
import RowProjection.Proofs.Record.Descent
import RowProjection.Proofs.Record.Obtained
import RowProjection.Proofs.Record.Boundaries
import RowProjection.Proofs.Value.Types
import RowProjection.Proofs.Projector.Refusals
import RowProjection.Proofs.Schema.Reordering
import RowProjection.Proofs.Schema.Redefinition
import RowProjection.Proofs.Record.PathComposition
import RowProjection.Proofs.Text.Scan
import RowProjection.Proofs.Calendar.Text
import RowProjection.Proofs.Number.DecimalText
import RowProjection.Proofs.Value.Text
import RowProjection.Proofs.Schema.Layout
import RowProjection.Proofs.Schema.Checksum
import RowProjection.Proofs.Record.SchemaOrigins
import RowProjection.Proofs.Record.Positions
import RowProjection.Proofs.Schema.Fields
import RowProjection.Proofs.Column
import RowProjection.Proofs.Projector.Resolution
import RowProjection.Proofs.Record.Migration
import RowProjection.Proofs.Record.Additions
import RowProjection.Proofs.Wire.Sequences
