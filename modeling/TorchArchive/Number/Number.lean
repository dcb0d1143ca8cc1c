import TorchArchive.Number.Decimal

/-!
Numbers: integers of any size and doubles, compared by their exact values.
-/

namespace TorchArchive

/-- An integer or a double. -/
inductive Number where
  | int (n : Int)
  | float (x : Binary64)
  deriving DecidableEq

namespace Number

/-- The point of the extended number line that a number stands for: finite
points count units, and there is none for a value that is not a number. -/
inductive Point where
  | below
  | finite (units : Int)
  | above
  deriving DecidableEq

/-- The point of a double. -/
private def floatPoint? (x : Binary64) : Option Point :=
  match x.value with
  | .nan => none
  | .infinite negative => some (if negative then .below else .above)
  | .finite negative magnitude =>
      some (.finite (if negative then -(magnitude : Int) else magnitude))

/-- The point of a number. -/
def point? : Number → Option Point
  | int n => some (.finite (n * (FloatValue.one : Int)))
  | float x => floatPoint? x

/-- The order of two points. -/
def Point.compare : Point → Point → Ordering
  | .below, .below => .eq
  | .below, _ => .lt
  | _, .below => .gt
  | .above, .above => .eq
  | .above, _ => .gt
  | _, .above => .lt
  | .finite m, .finite n => Ord.compare m n

/-- The order of two numbers by exact value; none if one is not a number. -/
def compare? (a b : Number) : Option Ordering :=
  match a, b with
  | int m, int n => some (Ord.compare m n)
  | _, _ => do
      let p ← a.point?
      let q ← b.point?
      return p.compare q

def equals (a b : Number) : Bool := a.compare? b == some .eq

def less (a b : Number) : Bool := a.compare? b == some .lt

/-- The double nearest to a number; none when an integer is too large. -/
def toFloat? : Number → Option Binary64
  | int n => Binary64.ofInt? n
  | float x => some x

/-- The product: exact for two integers, rounded otherwise. None when an
integer is too large for the rounded product. -/
def mul? : Number → Number → Option Number
  | int m, int n => some (int (m * n))
  | a, b => do
      let x ← a.toFloat?
      let y ← b.toFloat?
      return float (x.mul y)

/-- The sum: exact for two integers, rounded otherwise. None when an integer is
too large for the rounded sum. -/
def add? : Number → Number → Option Number
  | int m, int n => some (int (m + n))
  | a, b => do
      let x ← a.toFloat?
      let y ← b.toFloat?
      return float (x.add y)

def isZero : Number → Bool
  | int n => n == 0
  | float x => x.isZero

end Number

end TorchArchive
