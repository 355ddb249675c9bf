import RowProjection.Number.Decimal
import RowProjection.Number.Floating
import RowProjection.Wire.Fault
import RowProjection.Wire.Word

namespace RowProjection.Wire

/-- A reader that says why it fails. -/
abbrev Reader (α : Type) := ByteReader (Except Fault) α

namespace Reader

/-- Reads exactly so many bytes. -/
def take (count : Nat) : Reader (List UInt8) := fun bytes =>
  match takeBytes? count bytes with
  | some result => .ok result
  | none => .error .unexpectedEnd

/-- Reads a word of so many bytes. -/
def word (width : Nat) : Reader Nat := do
  return ofLittleEndian (← take width)

/-- Answers a value, or fails where there is none. -/
def require {α : Type} (value? : Option α) (fault : Fault) : Reader α :=
  match value? with
  | some value => return value
  | none => throw fault

end Reader

/-- Writing, measuring and reading the values of a type. -/
structure Codec (α : Type) where
  write : α → Except Fault (List UInt8)
  size : α → Nat
  read : Reader α

namespace Codec

/-- A type whose values are words. -/
def ofWord {α : Type} (width : Nat) (toWord : α → Nat) (fromWord : Nat → α) : Codec α where
  write value := .ok (littleEndian width (toWord value))
  size _ := width
  read := do return fromWord (← Reader.word width)

def uint8 : Codec UInt8 := ofWord 1 UInt8.toNat UInt8.ofNat

def uint16 : Codec UInt16 := ofWord 2 UInt16.toNat UInt16.ofNat

def uint32 : Codec UInt32 := ofWord 4 UInt32.toNat UInt32.ofNat

def uint64 : Codec UInt64 := ofWord 8 UInt64.toNat UInt64.ofNat

/-- Integers in two's complement. -/
def signed (width : Nat) : Codec Int := ofWord width (wordOfInt width) (intOfWord width)

/-- A type whose values are written as those of another type. -/
def via {α β : Type} (codec : Codec β) (toOther : α → β) (fromOther : β → α) : Codec α where
  write value := codec.write (toOther value)
  size value := codec.size (toOther value)
  read := do return fromOther (← codec.read)

def int8 : Codec Int8 := (signed 1).via Int8.toInt Int8.ofInt

def int16 : Codec Int16 := (signed 2).via Int16.toInt Int16.ofInt

def int32 : Codec Int32 := (signed 4).via Int32.toInt Int32.ofInt

def int64 : Codec Int64 := (signed 8).via Int64.toInt Int64.ofInt

def single : Codec Number.Single := uint32.via (·.bits) Number.Single.mk

def double : Codec Number.Double := uint64.via (·.bits) Number.Double.mk

/-- One byte: one for true, anything else for false. -/
def boolean : Codec Bool := uint8.via (fun value => if value then 1 else 0) (· == 1)

/-- A length in bytes, and the bytes of the text. -/
def text : Codec String where
  write value :=
    let bytes := Text.Utf8.bytes value
    if bytes.length < UInt32.size then .ok (littleEndian 4 bytes.length ++ bytes)
    else .error .textTooLong
  size value := 4 + (Text.Utf8.bytes value).length
  read := do
    let length ← Reader.word 4
    let rest ← get
    match takeBytes? length rest with
    | none => throw (.textCutShort length rest.length)
    | some (bytes, remaining) =>
      match Text.Utf8.decode bytes with
      | .error fault => throw (.notText fault)
      | .ok value =>
        set remaining
        return value

/-- A tag, and the value if there is one. -/
def option {α : Type} (codec : Codec α) : Codec (Option α) where
  write
    | none => .ok [0]
    | some value => (codec.write value).map (1 :: ·)
  size
    | none => 1
    | some value => 1 + codec.size value
  read := do
    match ← Reader.word 1 with
    | 0 => return none
    | 1 => return some (← codec.read)
    | tag => throw (.invalidOptionTag tag)

/-- Writes a value into a buffer of fixed length; what it does not fill stays zero. -/
def writeInto {α : Type} (codec : Codec α) (length : Nat) (value : α) :
    Except Fault (List UInt8) := do
  let bytes ← codec.write value
  if bytes.length ≤ length then return bytes ++ List.replicate (length - bytes.length) 0
  else throw .bufferFull

end Codec

/-- The types that have a codec: words, floats, truth values, texts, and options of these. -/
inductive WireType where
  | uint8
  | uint16
  | uint32
  | uint64
  | int8
  | int16
  | int32
  | int64
  | single
  | double
  | boolean
  | text
  | option (inner : WireType)
  deriving DecidableEq, Repr

namespace WireType

/-- The values of a type. -/
def Carrier : WireType → Type
  | uint8 => UInt8
  | uint16 => UInt16
  | uint32 => UInt32
  | uint64 => UInt64
  | int8 => Int8
  | int16 => Int16
  | int32 => Int32
  | int64 => Int64
  | single => Number.Single
  | double => Number.Double
  | boolean => Bool
  | text => String
  | option inner => Option inner.Carrier

/-- The codec of a type. -/
def codec : (type : WireType) → Codec type.Carrier
  | uint8 => Codec.uint8
  | uint16 => Codec.uint16
  | uint32 => Codec.uint32
  | uint64 => Codec.uint64
  | int8 => Codec.int8
  | int16 => Codec.int16
  | int32 => Codec.int32
  | int64 => Codec.int64
  | single => Codec.single
  | double => Codec.double
  | boolean => Codec.boolean
  | text => Codec.text
  | option inner => Codec.option inner.codec

end WireType

end RowProjection.Wire
