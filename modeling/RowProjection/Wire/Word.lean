namespace RowProjection.Wire

/-- A reader of bytes: it answers and leaves the rest, or it fails as the monad has it. -/
abbrev ByteReader (m : Type → Type) (α : Type) := StateT (List UInt8) m α

/-- The bytes of a number in a word, the least significant first; what does not fit is cut off. -/
def littleEndian : Nat → Nat → List UInt8
  | 0, _ => []
  | width + 1, number => UInt8.ofNat number :: littleEndian width (number / 256)

/-- The number of a word. -/
def ofLittleEndian : List UInt8 → Nat
  | [] => 0
  | byte :: rest => byte.toNat + 256 * ofLittleEndian rest

/-- An integer as a word, in two's complement. -/
def wordOfInt (width : Nat) (number : Int) : Nat :=
  (number % (Nat.pow 256 width : Nat)).toNat

/-- The integer of a word in two's complement. -/
def intOfWord (width : Nat) (word : Nat) : Int :=
  Int.bmod word (Nat.pow 256 width)

/-- Takes a number of bytes from the front, if they are there. -/
def takeBytes? (count : Nat) (bytes : List UInt8) : Option (List UInt8 × List UInt8) :=
  if count ≤ bytes.length then some (bytes.take count, bytes.drop count) else none

@[simp] theorem length_littleEndian (width number : Nat) :
    (littleEndian width number).length = width := by
  induction width generalizing number with
  | zero => rfl
  | succ width hypothesis => simp [littleEndian, hypothesis]

theorem ofLittleEndian_littleEndian (width number : Nat) :
    ofLittleEndian (littleEndian width number) = number % Nat.pow 256 width := by
  induction width generalizing number with
  | zero => simp [littleEndian, ofLittleEndian, Nat.mod_one]
  | succ width hypothesis =>
    rw [littleEndian, ofLittleEndian, hypothesis, UInt8.toNat_ofNat', Nat.pow_eq, Nat.pow_eq,
      Nat.pow_succ' (m := 256)]
    exact (Nat.mod_mul (a := 256)).symm

end RowProjection.Wire
