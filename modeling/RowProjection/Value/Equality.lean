import RowProjection.Value.Basic

/-!
Equality of values as the query engine sees it: numbers by value, so that NaN differs from itself
and the zeros are equal, and instants by their moment.
-/

namespace RowProjection.Value

mutual

/-- Whether two values are equal. -/
def same : Value → Value → Bool
  | null, null => true
  | boolean left, boolean right => left == right
  | tinyInt left, tinyInt right => left == right
  | smallInt left, smallInt right => left == right
  | int left, int right => left == right
  | bigInt left, bigInt right => left == right
  | decimal left, decimal right => left.sameNumber right
  | real left, real right => left.datum.sameNumber right.datum
  | double left, double right => left.datum.sameNumber right.datum
  | varchar left, varchar right => left == right
  | date left, date right => left == right
  | time left, time right => left == right
  | timestamp left, timestamp right => left == right
  | timestampTz left, timestampTz right => left.sameInstant right
  | json left, json right => left.same right
  | map left, map right => sameFields left right
  | row left, row right => sameItems left right
  | record leftSchema left, record rightSchema right =>
    leftSchema == rightSchema && sameItems left right
  | object leftName left, object rightName right =>
    leftName == rightName && sameFields left right
  | bytes left, bytes right => left == right
  | _, _ => false

def sameItems : List Value → List Value → Bool
  | [], [] => true
  | left :: leftRest, right :: rightRest => same left right && sameItems leftRest rightRest
  | _, _ => false

def sameFields : List (String × Value) → List (String × Value) → Bool
  | [], [] => true
  | (leftName, left) :: leftRest, (rightName, right) :: rightRest =>
    leftName == rightName && same left right && sameFields leftRest rightRest
  | _, _ => false

end

end RowProjection.Value
