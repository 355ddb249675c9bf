/-!
Non-negative fractions, compared and rounded without loss. Every float and decimal operation of
this library is computed here first and rounded once.
-/

namespace RowProjection.Number

/-- The fraction `num / den`. The denominators used here are positive. -/
structure Ratio where
  num : Nat
  den : Nat
  deriving DecidableEq, Repr

namespace Ratio

def ofNat (number : Nat) : Ratio :=
  ⟨number, 1⟩

/-- `number * base ^ exponent`, also for negative exponents. -/
def scaled (number base : Nat) : Int → Ratio
  | .ofNat power => ⟨number * Nat.pow base power, 1⟩
  | .negSucc before => ⟨number, Nat.pow base (before + 1)⟩

def add (left right : Ratio) : Ratio :=
  ⟨left.num * right.den + right.num * left.den, left.den * right.den⟩

def mul (left right : Ratio) : Ratio :=
  ⟨left.num * right.num, left.den * right.den⟩

def div (left right : Ratio) : Ratio :=
  ⟨left.num * right.den, left.den * right.num⟩

def compare (left right : Ratio) : Ordering :=
  Ord.compare (left.num * right.den) (right.num * left.den)

/-- The greatest integer that is not above the fraction. -/
def floor (ratio : Ratio) : Nat :=
  ratio.num / ratio.den

/-- The nearest integer; a half goes to the even neighbour. -/
def nearestEven (ratio : Ratio) : Nat :=
  let whole := ratio.num / ratio.den
  match Ord.compare (2 * (ratio.num % ratio.den)) ratio.den with
  | .lt => whole
  | .eq => whole + whole % 2
  | .gt => whole + 1

/-- The nearest integer; a half goes up. -/
def nearestUp (ratio : Ratio) : Nat :=
  (2 * ratio.num + ratio.den) / (2 * ratio.den)

end Ratio

end RowProjection.Number
