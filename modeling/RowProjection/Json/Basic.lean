import RowProjection.KeyOrder
import RowProjection.Number.Floating

namespace RowProjection

/-- A JSON tree. Integers and floats are different numbers. -/
inductive Json where
  | null
  | boolean (value : Bool)
  | integer (value : Int)
  | double (value : Number.Double)
  | string (value : String)
  | array (items : List Json)
  | object (members : List (String × Json))
  deriving Repr

namespace Json

/-- The object with these members; of a repeated key the last counts. -/
def ofMembers (members : List (String × Json)) : Json :=
  object (KeyOrder.ofList members)

/-- A float as a number, or `null` where JSON has no number for it. -/
def ofDouble (value : Number.Double) : Json :=
  if value.isFinite then double value else null

mutual

/-- Equality of trees, with floats compared as numbers. -/
def same : Json → Json → Bool
  | null, null => true
  | boolean left, boolean right => left == right
  | integer left, integer right => left == right
  | double left, double right => left.datum.sameNumber right.datum
  | string left, string right => left == right
  | array left, array right => sameItems left right
  | object left, object right => sameMembers left right
  | _, _ => false

def sameItems : List Json → List Json → Bool
  | [], [] => true
  | left :: leftRest, right :: rightRest => same left right && sameItems leftRest rightRest
  | _, _ => false

def sameMembers : List (String × Json) → List (String × Json) → Bool
  | [], [] => true
  | (leftKey, left) :: leftRest, (rightKey, right) :: rightRest =>
    leftKey == rightKey && same left right && sameMembers leftRest rightRest
  | _, _ => false

end

end Json

end RowProjection
