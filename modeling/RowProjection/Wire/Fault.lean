import RowProjection.Schema.FieldKind
import RowProjection.Text.Hexadecimal
import RowProjection.Text.Utf8

namespace RowProjection.Wire

/-- The causes of a failed reading or writing of bytes. -/
inductive Fault where
  /-- The input ends inside a value of fixed size. -/
  | unexpectedEnd
  /-- The output has no room left. -/
  | bufferFull
  /-- A text of 2^32 bytes or more. -/
  | textTooLong
  /-- A text ends before its declared length. -/
  | textCutShort (declared present : Nat)
  /-- A text that is not UTF-8. -/
  | notText (fault : Text.Utf8.Fault)
  /-- An optional value that is neither absent nor present. -/
  | invalidOptionTag (tag : Nat)
  /-- A record of a schema that is not in the catalog. -/
  | unknownFingerprint (fingerprint : UInt32)
  | dateOutOfRange (days : Int)
  | timeOutOfRange (nanos : Int)
  | timestampOutOfRange (seconds : Int)
  | offsetTimestampOutOfRange (seconds offset : Int)
  /-- A present field of a kind that has no encoding. -/
  | noPayload (kind : FieldKind)
  /-- A value in a field of another kind. -/
  | wrongKind (valueKind : String) (kind : FieldKind)
  deriving DecidableEq, Repr

/-- The classes of faults that callers tell apart. -/
inductive FaultClass where
  | invalidData
  | invalidInput
  | unexpectedEof
  | writeZero
  deriving DecidableEq, Repr

namespace FaultClass

def name : FaultClass → String
  | invalidData => "InvalidData"
  | invalidInput => "InvalidInput"
  | unexpectedEof => "UnexpectedEof"
  | writeZero => "WriteZero"

end FaultClass

namespace Fault

/-- An integer with its sign, also a positive one. -/
def signedText (number : Int) : String :=
  if number < 0 then toString number else "+" ++ toString number

def message : Fault → String
  | unexpectedEnd => "failed to fill whole buffer"
  | bufferFull => "failed to write whole buffer"
  | textTooLong => "string too long"
  | textCutShort declared present => s!"string declares {declared} bytes, {present} present"
  | notText fault => fault.message
  | invalidOptionTag tag => s!"invalid option tag {tag}"
  | unknownFingerprint fingerprint =>
    "unknown schema fingerprint 0x" ++
      String.ofList (Text.Hexadecimal.padded 8 fingerprint.toNat)
  | dateOutOfRange days => s!"date out of range: {days}"
  | timeOutOfRange nanos => s!"time out of range: {nanos}"
  | timestampOutOfRange seconds => s!"timestamp out of range: {seconds}"
  | offsetTimestampOutOfRange seconds offset =>
    s!"timestamp out of range: {seconds}" ++ signedText offset
  | noPayload kind => kind.text ++ " fields carry no payload"
  | wrongKind valueKind kind => "cannot store " ++ valueKind ++ " in a " ++ kind.text ++ " field"

def faultClass : Fault → FaultClass
  | unexpectedEnd | textCutShort _ _ => .unexpectedEof
  | bufferFull => .writeZero
  | textTooLong | wrongKind _ _ => .invalidInput
  | notText _ | invalidOptionTag _ | unknownFingerprint _ | dateOutOfRange _ | timeOutOfRange _
  | timestampOutOfRange _ | offsetTimestampOutOfRange _ _ | noPayload _ => .invalidData

end Fault

end RowProjection.Wire
