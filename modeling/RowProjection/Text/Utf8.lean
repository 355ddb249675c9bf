namespace RowProjection.Text.Utf8

/-- The one encoding of a text. -/
def bytes (text : String) : List UInt8 :=
  text.toByteArray.data.toList

/-- Why bytes encode no text: a wrong sequence of `length` bytes, or an end inside a sequence. -/
inductive Fault where
  | invalid (length index : Nat)
  | incomplete (index : Nat)
  deriving DecidableEq, Repr

namespace Fault

def message : Fault → String
  | .invalid length index =>
    s!"invalid utf-8 sequence of {length} bytes from index {index}"
  | .incomplete index => s!"incomplete utf-8 byte sequence from index {index}"

end Fault

/-- The range a byte after the first must lie in, given the first byte: it keeps out overlong
forms, surrogates and numbers above the last code point. -/
def secondRange (first : UInt8) : UInt8 × UInt8 :=
  if first = 0xE0 then (0xA0, 0xBF)
  else if first = 0xED then (0x80, 0x9F)
  else if first = 0xF0 then (0x90, 0xBF)
  else if first = 0xF4 then (0x80, 0x8F)
  else (0x80, 0xBF)

/-- How many bytes a sequence has, given its first byte. -/
def sequenceLength? (first : UInt8) : Option Nat :=
  if first < 0x80 then some 1
  else if 0xC2 ≤ first ∧ first ≤ 0xDF then some 2
  else if 0xE0 ≤ first ∧ first ≤ 0xEF then some 3
  else if 0xF0 ≤ first ∧ first ≤ 0xF4 then some 4
  else none

/-- Checks the bytes of one sequence that are still due, of which `seen` came before at `index`. -/
def checkRest (index seen : Nat) (range : UInt8 × UInt8) : Nat → List UInt8 →
    Except Fault (List UInt8)
  | 0, rest => .ok rest
  | _ + 1, [] => .error (.incomplete index)
  | due + 1, byte :: rest =>
    if range.1 ≤ byte ∧ byte ≤ range.2 then checkRest index (seen + 1) (0x80, 0xBF) due rest
    else .error (.invalid seen index)

/-- The first fault of the bytes from `index` on. Every sequence takes a byte, so as many steps as
there are bytes are enough. -/
def faultFrom : Nat → Nat → List UInt8 → Option Fault
  | steps + 1, index, first :: rest =>
    match sequenceLength? first with
    | none => some (.invalid 1 index)
    | some length =>
      match checkRest index 1 (secondRange first) (length - 1) rest with
      | .error fault => some fault
      | .ok remaining => faultFrom steps (index + length) remaining
  | _, _, _ => none

/-- The first place where bytes stop being the encoding of a text. -/
def fault? (encoded : List UInt8) : Option Fault :=
  faultFrom encoded.length 0 encoded

/-- The text that bytes encode. -/
def decode? (encoded : List UInt8) : Option String :=
  let stored : ByteArray := ⟨encoded.toArray⟩
  if valid : stored.IsValidUTF8 then some (String.ofByteArray stored valid) else none

/-- The text that bytes encode, or the first fault. -/
def decode (encoded : List UInt8) : Except Fault String :=
  match decode? encoded with
  | some text => .ok text
  | none => .error ((fault? encoded).getD (.invalid 1 0))

theorem decode?_bytes (text : String) : decode? (bytes text) = some text := by
  simp [decode?, bytes, text.isValidUTF8]

theorem bytes_of_decode? {encoded : List UInt8} {text : String}
    (found : decode? encoded = some text) : bytes text = encoded := by
  simp only [decode?] at found
  split at found
  · cases found
    simp [bytes]
  · cases found

theorem bytes_of_decode {encoded : List UInt8} {text : String}
    (found : decode encoded = .ok text) : bytes text = encoded := by
  rw [decode] at found
  split at found
  · next decoded =>
    cases found
    exact bytes_of_decode? decoded
  · cases found

end RowProjection.Text.Utf8
