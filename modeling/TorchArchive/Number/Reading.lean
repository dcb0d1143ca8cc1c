import TorchArchive.Character.Basic
import TorchArchive.Number.Decimal

/-!
Reading numbers that were given as text. Blanks around the number, digits of
every script and single underscores between digits are allowed.
-/

namespace TorchArchive

/-- Splits off an optional sign; true is a minus. -/
private def splitSign : List Char → Bool × List Char
  | '-' :: rest => (true, rest)
  | '+' :: rest => (false, rest)
  | text => (false, text)

/-- The text with every digit in ASCII. -/
private def plainDigits (text : List Char) : List Char :=
  text.map fun c =>
    match digitValue? c with
    | some value => Char.ofNat ('0'.toNat + value)
    | none => c

private def isPlainDigit (c : Char) : Bool := '0' ≤ c && c ≤ '9'

/-- Drops single underscores that stand between digits; none if another one
stands anywhere. -/
private def dropUnderscores? (afterDigit : Bool) : List Char → Option (List Char)
  | [] => some []
  | '_' :: c :: rest =>
      if afterDigit && isPlainDigit c then
        (dropUnderscores? true rest).map (c :: ·)
      else none
  | '_' :: [] => none
  | c :: rest => (dropUnderscores? (isPlainDigit c) rest).map (c :: ·)

private def isNumeral (digits : List Char) : Bool :=
  !digits.isEmpty && digits.all isPlainDigit

/-- Reads an integer in decimal notation. -/
def readInteger? (text : String) : Option Int := do
  let (negative, body) := splitSign (stripBlanks (plainDigits text.toList))
  let digits ← dropUnderscores? false body
  if !isNumeral digits || integerDigitLimit < digits.length then none
  else
    let n : Int := natOfDigits digits
    some (if negative then -n else n)

private def lowerCase (text : List Char) : String :=
  String.ofList (text.map Char.toLower)

/-- Reads digits with an optional fraction and exponent. -/
private def readDecimal? (text : List Char) : Option Decimal := do
  let whole := text.takeWhile isPlainDigit
  let afterWhole := text.dropWhile isPlainDigit
  let (fraction, afterFraction) :=
    match afterWhole with
    | '.' :: rest => (rest.takeWhile isPlainDigit, rest.dropWhile isPlainDigit)
    | rest => ([], rest)
  if whole.isEmpty && fraction.isEmpty then none
  else
    let exponent : Int ←
      match afterFraction with
      | [] => some 0
      | e :: rest =>
          let (negative, digits) := splitSign rest
          if (e == 'e' || e == 'E') && isNumeral digits then
            let n : Int := natOfDigits digits
            some (if negative then -n else n)
          else none
    some ⟨natOfDigits (whole ++ fraction), exponent - (fraction.length : Int)⟩

/-- Reads a double: a decimal number or one of the words for infinities and for
what is not a number. -/
def readFloat? (text : String) : Option Binary64 := do
  let (negative, body) := splitSign (stripBlanks (plainDigits text.toList))
  match lowerCase body with
  | "inf" | "infinity" => some (.infinity negative)
  | "nan" => some .nan
  | _ =>
      let decimal ← readDecimal? (← dropUnderscores? false body)
      some (decimal.round negative)

end TorchArchive
