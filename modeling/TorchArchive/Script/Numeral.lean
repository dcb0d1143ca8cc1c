import TorchArchive.Character.Identifier
import TorchArchive.Number.Decimal
import TorchArchive.Atom

/-!
Numerals of source text: integers in four bases, decimal fractions and imaginary
numbers, with underscores between digits.
-/

namespace TorchArchive.Script

/-- Whether a character can stand in a name, by its place in the character set. -/
def isNameChar (c : Char) : Bool :=
  c.isAlphanum || c == '_' || 0x80 ≤ c.toNat

def isDecimal (c : Char) : Bool := '0' ≤ c && c ≤ '9'

/-- Splits off digits that may be joined by single underscores; none if an
underscore is not followed by a digit. -/
def digitRun (isDigit : Char → Bool) :
    List Char → Option (List Char × List Char)
  | '_' :: c :: rest =>
      if isDigit c then
        (digitRun isDigit rest).map fun (digits, rest) => (c :: digits, rest)
      else none
  | ['_'] => none
  | c :: rest =>
      if isDigit c then
        (digitRun isDigit rest).map fun (digits, rest) => (c :: digits, rest)
      else some ([], c :: rest)
  | [] => some ([], [])

/-- The words that may follow a numeral without a blank, by what follows their
first letter. -/
def joinedWords : List (List Char) :=
  ["and", "else", "for", "if", "in", "is", "not", "or"].map String.toList

/-- Whether a numeral may end before the given text. -/
def endsNumeral (rest : List Char) : Bool :=
  joinedWords.any (fun word => word.isPrefixOf rest) ||
    !(rest.head?.any isNameChar)

def digitWorth (c : Char) : Nat :=
  if isDecimal c then c.toNat - '0'.toNat
  else c.toLower.toNat - 'a'.toNat + 10

def isDigitOf (base : Nat) (c : Char) : Bool :=
  (isDecimal c || ('a' ≤ c.toLower && c.toLower ≤ 'f')) && digitWorth c < base

/-- Reads the digits of an integer behind the letter that tells its base. -/
def basedNumeral (base : Nat) (input : List Char) :
    Option (Atom × List Char) := do
  let (digits, rest) ← digitRun (isDigitOf base) input
  if digits.isEmpty || !endsNumeral rest || rest.head?.any isDecimal then none
  else
    let n := digits.foldl (fun n c => base * n + digitWorth c) 0
    some (.int n, rest)

/-- Reads an exponent; one that is no exponent but may begin a word is left. -/
def exponentPart (input : List Char) :
    Option (Option Int × List Char) :=
  match input with
  | e :: rest =>
      if e == 'e' || e == 'E' then
        let signed :=
          match rest with
          | '-' :: behind => some (true, behind)
          | '+' :: behind => some (false, behind)
          | _ => none
        match signed, rest with
        | some (negative, behind), _ =>
            if behind.head?.any isDecimal then do
              let (digits, rest) ← digitRun isDecimal behind
              let n : Int := natOfDigits digits
              some (some (if negative then -n else n), rest)
            else none
        | none, c :: _ =>
            if isDecimal c then do
              let (digits, rest) ← digitRun isDecimal rest
              some (some (natOfDigits digits : Int), rest)
            else if endsNumeral input then some (none, input)
            else none
        | none, [] => none
      else some (none, input)
  | [] => some (none, [])

/-- Reads what follows the whole part of a numeral. -/
def decimalNumeral (whole rest : List Char) : Option (Atom × List Char) := do
  let (fraction?, rest) ←
    match rest with
    | '.' :: behind =>
        if behind.head? == some '_' then none
        else do
          let (fraction, rest) ← digitRun isDecimal behind
          some (some fraction, rest)
    | rest => some (none, rest)
  let (exponent?, rest) ← exponentPart rest
  let fraction := fraction?.getD []
  let decimal : Decimal :=
    ⟨natOfDigits (whole ++ fraction), exponent?.getD 0 - (fraction.length : Int)⟩
  match rest with
  | c :: behind =>
      if c == 'j' || c == 'J' then
        if endsNumeral behind then
          some (.imaginary (decimal.round false), behind)
        else none
      else finish whole fraction? exponent? decimal (c :: behind)
  | [] => finish whole fraction? exponent? decimal []
where
  /-- An integer must not begin with a zero unless it is zero. -/
  finish (whole : List Char) (fraction? : Option (List Char))
      (exponent? : Option Int) (decimal : Decimal) (rest : List Char) :
      Option (Atom × List Char) :=
    if !endsNumeral rest then none
    else
      match fraction?, exponent? with
      | none, none =>
          let n := natOfDigits whole
          if integerDigitLimit < whole.length then none
          else if whole.head? == some '0' && n != 0 then none
          else some (.int n, rest)
      | _, _ => some (.float (decimal.round false), rest)

/-- Reads the numeral at the front of a text that begins with a digit, or with a
point before one. -/
def readNumeral (input : List Char) : Option (Atom × List Char) :=
  match input with
  | '0' :: x :: rest =>
      if x == 'x' || x == 'X' then basedNumeral 16 rest
      else if x == 'o' || x == 'O' then basedNumeral 8 rest
      else if x == 'b' || x == 'B' then basedNumeral 2 rest
      else do
        let (whole, rest) ← digitRun isDecimal input
        decimalNumeral whole rest
  | '.' :: _ => decimalNumeral [] input
  | _ => do
      let (whole, rest) ← digitRun isDecimal input
      decimalNumeral whole rest

end TorchArchive.Script
