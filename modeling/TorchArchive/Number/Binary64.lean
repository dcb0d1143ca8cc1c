/-!
Binary floating-point numbers, read exactly. A number is kept as its 64 bits;
its value is a whole multiple of the least positive number `2 ^ (-1074)`, so
every comparison and every rounding below is integer arithmetic.
-/

namespace TorchArchive

/-- The value that a floating-point word denotes. A finite magnitude counts
multiples of `2 ^ (-1074)`. -/
inductive FloatValue where
  | nan
  | infinite (negative : Bool)
  | finite (negative : Bool) (magnitude : Nat)
  deriving DecidableEq, Inhabited

namespace FloatValue

/-- The binary exponent of the unit in which finite magnitudes are counted. -/
def unitExponent : Nat := 1074

/-- One, counted in units. -/
def one : Nat := Nat.pow 2 unitExponent

/-- Flips the sign. -/
def neg : FloatValue → FloatValue
  | nan => nan
  | infinite negative => infinite (!negative)
  | finite negative magnitude => finite (!negative) magnitude

end FloatValue

/-- A binary interchange format, given by the widths of its two fields. -/
structure FloatFormat where
  exponentWidth : Nat
  fractionWidth : Nat
  deriving DecidableEq

namespace FloatFormat

def half : FloatFormat := ⟨5, 10⟩
def single : FloatFormat := ⟨8, 23⟩
def double : FloatFormat := ⟨11, 52⟩

/-- The number of bits of a word. -/
def width (format : FloatFormat) : Nat :=
  1 + format.exponentWidth + format.fractionWidth

/-- The exponent of the least positive number of the format, counted from the
common unit `2 ^ (-1074)`. -/
def unitShift (format : FloatFormat) : Nat :=
  FloatValue.unitExponent + 2 - Nat.pow 2 (format.exponentWidth - 1) - format.fractionWidth

/-- Reads a word of the format: sign, biased exponent, fraction. -/
def read (format : FloatFormat) (word : Nat) : FloatValue :=
  let fraction := word % Nat.pow 2 format.fractionWidth
  let exponent :=
    word / Nat.pow 2 format.fractionWidth % Nat.pow 2 format.exponentWidth
  let negative :=
    word / Nat.pow 2 (format.fractionWidth + format.exponentWidth) % 2 == 1
  if exponent = Nat.pow 2 format.exponentWidth - 1 then
    if fraction = 0 then .infinite negative else .nan
  else if exponent = 0 then
    .finite negative (fraction * Nat.pow 2 format.unitShift)
  else
    .finite negative
      ((Nat.pow 2 format.fractionWidth + fraction) *
        Nat.pow 2 (exponent - 1 + format.unitShift))

end FloatFormat

/-- The quotient nearest to `numerator / denominator`; a tie goes to the even
neighbour. -/
def nearestQuotient (numerator denominator : Nat) : Nat :=
  let quotient := numerator / denominator
  let twice := 2 * (numerator % denominator)
  if twice < denominator then quotient
  else if denominator < twice then quotient + 1
  else if quotient % 2 = 0 then quotient
  else quotient + 1

/-- A double-precision number. All words that are not a number are kept as one
word. -/
structure Binary64 where
  bits : UInt64
  deriving DecidableEq

namespace Binary64

/-- The word kept for every value that is not a number. -/
def nanWord : Nat := 0x7ff8000000000000

def nan : Binary64 := ⟨nanWord.toUInt64⟩

instance : Inhabited Binary64 := ⟨⟨0⟩⟩

/-- The number that a word of 64 bits denotes. -/
def value (x : Binary64) : FloatValue := FloatFormat.double.read x.bits.toNat

def ofBits (bits : UInt64) : Binary64 :=
  match FloatFormat.double.read bits.toNat with
  | .nan => nan
  | _ => ⟨bits⟩

private def signWord (negative : Bool) : Nat :=
  if negative then Nat.pow 2 63 else 0

def infinity (negative : Bool) : Binary64 :=
  ⟨(signWord negative + 0x7ff0000000000000).toUInt64⟩

/-- Encodes a magnitude that the format holds exactly; one beyond the largest
finite number gives an infinity. -/
def ofMagnitude (negative : Bool) (magnitude : Nat) : Binary64 :=
  if magnitude < Nat.pow 2 52 then
    ⟨(signWord negative + magnitude).toUInt64⟩
  else
    let shift := magnitude.log2 - 52
    if 2046 ≤ shift then infinity negative
    else
      ⟨(signWord negative + (shift + 1) * Nat.pow 2 52 +
        (magnitude / Nat.pow 2 shift - Nat.pow 2 52)).toUInt64⟩

/-- The number nearest to `numerator / denominator` units, ties to even. -/
def roundUnits (negative : Bool) (numerator denominator : Nat) : Binary64 :=
  let quotient := numerator / denominator
  let shift := quotient.log2 - 52
  ofMagnitude negative
    (nearestQuotient numerator (denominator * Nat.pow 2 shift) * Nat.pow 2 shift)

/-- The number nearest to `numerator / denominator`, ties to even. -/
def roundQuotient (negative : Bool) (numerator denominator : Nat) : Binary64 :=
  roundUnits negative (numerator * FloatValue.one) denominator

/-- The number of an exactly known value. -/
def ofValue : FloatValue → Binary64
  | .nan => nan
  | .infinite negative => infinity negative
  | .finite negative magnitude => roundUnits negative magnitude 1

def isNaN (x : Binary64) : Bool := x.value == .nan

def isInfinite (x : Binary64) : Bool :=
  match x.value with
  | .infinite _ => true
  | _ => false

/-- Whether a number is zero, of either sign. -/
def isZero (x : Binary64) : Bool :=
  match x.value with
  | .finite _ 0 => true
  | _ => false

/-- The number nearest to an integer; none when it lies beyond the largest
finite number. -/
def ofInt? (n : Int) : Option Binary64 :=
  let x := roundQuotient (decide (n < 0)) n.natAbs 1
  if x.isInfinite then none else some x

/-- The integer part, toward zero; none for infinities and for values that are
not a number. -/
def truncate? (x : Binary64) : Option Int :=
  match x.value with
  | .finite negative magnitude =>
      let whole : Int := magnitude / FloatValue.one
      some (if negative then -whole else whole)
  | _ => none

/-- Whether a number is finite and whole. -/
def isWhole (x : Binary64) : Bool :=
  match x.value with
  | .finite _ magnitude => magnitude % FloatValue.one == 0
  | _ => false

def neg (x : Binary64) : Binary64 :=
  match x.value with
  | .nan => nan
  | .infinite negative => infinity (!negative)
  | .finite negative magnitude => ofMagnitude (!negative) magnitude

/-- The correctly rounded product. -/
def mul (x y : Binary64) : Binary64 :=
  match x.value, y.value with
  | .nan, _ => nan
  | _, .nan => nan
  | .infinite s, .infinite t => infinity (s != t)
  | .infinite s, .finite t magnitude =>
      if magnitude = 0 then nan else infinity (s != t)
  | .finite s magnitude, .infinite t =>
      if magnitude = 0 then nan else infinity (s != t)
  | .finite s m, .finite t n =>
      roundUnits (s != t) (m * n) FloatValue.one

/-- The correctly rounded sum. Opposite numbers add up to a positive zero. -/
def add (x y : Binary64) : Binary64 :=
  match x.value, y.value with
  | .nan, _ => nan
  | _, .nan => nan
  | .infinite s, .infinite t => if s = t then infinity s else nan
  | .infinite s, _ => infinity s
  | _, .infinite t => infinity t
  | .finite s m, .finite t n =>
      let sum : Int :=
        (if s then -(m : Int) else m) + (if t then -(n : Int) else n)
      if sum = 0 then ofMagnitude (s && t) 0
      else roundUnits (decide (sum < 0)) sum.natAbs 1

/-! ## The bits as text -/

/-- The sixteen hexadecimal digits of the bits, the sign bit first. -/
def toHex (x : Binary64) : String :=
  let digits := Nat.toDigits 16 x.bits.toNat
  String.ofList (List.replicate (16 - digits.length) '0' ++ digits)

end Binary64

end TorchArchive
