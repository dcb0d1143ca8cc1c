import TorchArchive.Number.Binary64

/-!
Decimal notation of numbers. `Decimal.round` reads digits with an exponent as
the nearest double; `Binary64.shortest` finds the fewest digits that read back
as the number they came from, and `Binary64.text` lays them out.
-/

namespace TorchArchive

/-- The decimal digits of a natural number, most significant first. -/
def decimalDigits (n : Nat) : List Char := Nat.toDigits 10 n

/-- The decimal text of an integer. -/
def integerText (n : Int) : String :=
  let digits := String.ofList (decimalDigits n.natAbs)
  if n < 0 then "-" ++ digits else digits

/-- The value of a decimal digit; anything else counts as zero. -/
def digitValue (c : Char) : Nat := c.toNat - '0'.toNat

/-- The natural number that a list of decimal digits denotes. -/
def natOfDigits (digits : List Char) : Nat :=
  digits.foldl (fun total c => total * 10 + digitValue c) 0

/-- The longest decimal text of an integer that is read or written. -/
def integerDigitLimit : Nat := 4300

/-- The decimal number `digits * 10 ^ exponent`. -/
structure Decimal where
  digits : Nat
  exponent : Int
  deriving DecidableEq

namespace Decimal

/-- The number of digits before which every decimal is an infinity and behind
which every decimal is zero. -/
private def magnitudeBound : Int := 400

/-- The double nearest to a decimal number, ties to even. -/
def round (negative : Bool) (decimal : Decimal) : Binary64 :=
  let length : Int := (decimalDigits decimal.digits).length
  if decimal.digits = 0 then Binary64.ofMagnitude negative 0
  else if magnitudeBound < length + decimal.exponent then
    Binary64.infinity negative
  else if length + decimal.exponent < -magnitudeBound then
    Binary64.ofMagnitude negative 0
  else if 0 ≤ decimal.exponent then
    Binary64.roundQuotient negative
      (decimal.digits * Nat.pow 10 decimal.exponent.toNat) 1
  else
    Binary64.roundQuotient negative decimal.digits
      (Nat.pow 10 (-decimal.exponent).toNat)

/-- Removes trailing zeros from the digits, at most `fuel` of them. -/
private def trimZeros : Nat → Decimal → Decimal
  | 0, decimal => decimal
  | fuel + 1, decimal =>
      if decimal.digits % 10 = 0 then
        trimZeros fuel ⟨decimal.digits / 10, decimal.exponent + 1⟩
      else decimal

end Decimal

/-! ## Shortest digits -/

/-- The real numbers that round to one magnitude, in quarters of the unit. -/
structure RoundingInterval where
  low : Nat
  high : Nat
  /-- Whether the ends belong to the interval. -/
  closed : Bool

namespace RoundingInterval

/-- The interval around a positive finite magnitude. The gap below a power of
two is half the gap above it. -/
def around (magnitude : Nat) : RoundingInterval :=
  let shift := magnitude.log2 - 52
  let gap := Nat.pow 2 shift
  let significand := magnitude / gap
  let below := if significand = Nat.pow 2 52 ∧ 0 < shift then gap else 2 * gap
  { low := 4 * magnitude - below
    high := 4 * magnitude + 2 * gap
    closed := significand % 2 = 0 }

/-- Whether `numerator / denominator` quarter units lie in the interval. -/
def contains (interval : RoundingInterval) (numerator denominator : Nat) : Bool :=
  let low := interval.low * denominator
  let high := interval.high * denominator
  if interval.closed then low ≤ numerator && numerator ≤ high
  else low < numerator && numerator < high

end RoundingInterval

namespace Binary64

/-- A power of ten as a quotient of natural numbers. -/
private def tenPower (exponent : Int) : Nat × Nat :=
  if 0 ≤ exponent then (Nat.pow 10 exponent.toNat, 1)
  else (1, Nat.pow 10 (-exponent).toNat)

/-- Whether a magnitude is at least `10 ^ exponent`. -/
private def reachesTenPower (magnitude : Nat) (exponent : Int) : Bool :=
  let power := tenPower exponent
  power.1 * FloatValue.one ≤ magnitude * power.2

/-- The exponent of the leading decimal digit of a positive magnitude. -/
def leadingExponent (magnitude : Nat) : Int :=
  let estimate : Int :=
    ((magnitude.log2 : Int) - FloatValue.unitExponent) * 1233 / 4096
  if reachesTenPower magnitude estimate then
    if reachesTenPower magnitude (estimate + 1) then estimate + 1 else estimate
  else estimate - 1

/-- The decimal of a given number of digits nearest to a magnitude, if one of
its two neighbours on that grid rounds to it. -/
private def onGrid? (magnitude : Nat) (interval : RoundingInterval)
    (exponent : Int) : Option Decimal :=
  let power := tenPower exponent
  let step := power.1 * FloatValue.one
  let numerator := magnitude * power.2
  let lower := numerator / step
  let hits (candidate : Nat) : Bool :=
    interval.contains (4 * candidate * step) power.2
  let twice := 2 * (numerator % step)
  let upperNearer := step < twice || (twice == step && lower % 2 == 1)
  match hits lower, hits (lower + 1) with
  | true, true => some ⟨if upperNearer then lower + 1 else lower, exponent⟩
  | true, false => some ⟨lower, exponent⟩
  | false, true => some ⟨lower + 1, exponent⟩
  | false, false => none

private def search (magnitude : Nat) (interval : RoundingInterval) :
    Nat → Int → Decimal
  | 0, exponent => ⟨nearestQuotient magnitude
      ((tenPower exponent).1 * FloatValue.one), exponent⟩
  | fuel + 1, exponent =>
      match onGrid? magnitude interval exponent with
      | some decimal => decimal
      | none => search magnitude interval fuel (exponent - 1)

/-- The fewest digits that read back as a positive magnitude; of several such
decimals the nearest. -/
def shortest (magnitude : Nat) : Decimal :=
  Decimal.trimZeros 17
    (search magnitude (RoundingInterval.around magnitude) 17
      (leadingExponent magnitude))

/-! ## Layout -/

private def zeros (n : Nat) : List Char := List.replicate n '0'

/-- Positional notation, with at least one digit after the point when
`pointZero` is set. -/
private def positional (digits : List Char) (point : Int) (pointZero : Bool) :
    List Char :=
  if point ≤ 0 then
    '0' :: '.' :: (zeros (-point).toNat ++ digits)
  else if digits.length ≤ point.toNat then
    digits ++ zeros (point.toNat - digits.length) ++
      (if pointZero then ['.', '0'] else [])
  else
    digits.take point.toNat ++ '.' :: digits.drop point.toNat

/-- Exponent notation: one digit, the others behind a point, and a signed
exponent of at least two digits. -/
private def scientific (digits : List Char) (exponent : Int) : List Char :=
  let mantissa :=
    match digits with
    | [] => ['0']
    | [d] => [d]
    | d :: rest => d :: '.' :: rest
  let size := decimalDigits exponent.natAbs
  mantissa ++ 'e' :: (if exponent < 0 then '-' else '+') ::
    (zeros (2 - size.length) ++ size)

/-- The text of a finite magnitude: positional when the leading digit stands
between `10 ^ (-4)` and `10 ^ 15`, in exponent notation outside. -/
private def magnitudeText (magnitude : Nat) (pointZero : Bool) : List Char :=
  if magnitude = 0 then positional ['0'] 1 pointZero
  else
    let decimal := shortest magnitude
    let digits := decimalDigits decimal.digits
    let point := (digits.length : Int) + decimal.exponent
    if -4 < point ∧ point ≤ 16 then positional digits point pointZero
    else scientific digits (point - 1)

private def textWith (pointZero : Bool) (x : Binary64) : String :=
  match x.value with
  | .nan => "nan"
  | .infinite negative => if negative then "-inf" else "inf"
  | .finite negative magnitude =>
      let digits := String.ofList (magnitudeText magnitude pointZero)
      if negative then "-" ++ digits else digits

/-- The shortest text that reads back as the number, marked as a fraction. -/
def text (x : Binary64) : String := textWith true x

/-- The shortest text that reads back as the number; a whole number has no
point. -/
def bareText (x : Binary64) : String := textWith false x

end Binary64

end TorchArchive
