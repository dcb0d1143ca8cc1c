import TorchArchive.Number.Reading
import TorchArchive.Text.Base64
import TorchArchive.Yaml.Cursor
import TorchArchive.Yaml.Timestamp

/-!
Scalars of YAML documents: what a plain text without a tag is, and what the text of a
tagged scalar stands for.
-/

namespace TorchArchive.Yaml

open TorchArchive

/-- The tag of a type that every document knows. -/
def standardTag (name : String) : String := "tag:yaml.org,2002:" ++ name

/-! ## Forms -/

private def isDigit (c : Char) : Bool := '0' ≤ c && c ≤ '9'

/-- Whether a text is not empty and of digits and underscores. -/
private def isNumeral (digit : Char → Bool) (text : List Char) : Bool :=
  !text.isEmpty && text.all fun c => digit c || c == '_'

private def dropSign : List Char → List Char
  | '+' :: rest => rest
  | '-' :: rest => rest
  | text => text

/-- A decimal number that may begin with a zero. -/
private def isDecimal (text : List Char) : Bool :=
  isDigit (text.headD ' ') && isNumeral isDigit text

/-- The parts of a number in base sixty. -/
private def sexagesimalParts (text : List Char) : List (List Char) :=
  (String.ofList text).splitOn ":" |>.map String.toList

/-- A part behind the first one of a number in base sixty. -/
private def isSexagesimalDigit : List Char → Bool
  | [units] => isDigit units
  | [tens, units] => '0' ≤ tens && tens ≤ '5' && isDigit units
  | _ => false

private def isSexagesimal (text : List Char) : Bool :=
  match sexagesimalParts text with
  | first :: second :: others =>
      isDecimal first && (second :: others).all isSexagesimalDigit
  | _ => false

private def isUnsignedInteger (text : List Char) : Bool :=
  match text with
  | '0' :: 'b' :: digits => isNumeral (fun c => c == '0' || c == '1') digits
  | '0' :: 'x' :: digits => isNumeral (fun c => (hexValue? c).isSome) digits
  | ['0'] => true
  | '0' :: digits => isNumeral (fun c => '0' ≤ c && c ≤ '7') digits
  | _ => isDecimal text || isSexagesimal text

private def isInteger (text : List Char) : Bool := isUnsignedInteger (dropSign text)

/-- An exponent with its sign, or nothing. -/
private def isExponent : List Char → Bool
  | [] => true
  | e :: sign :: digits =>
      (e == 'e' || e == 'E') && (sign == '+' || sign == '-') &&
        !digits.isEmpty && digits.all isDigit
  | _ => false

/-- What may stand behind the point of a number. -/
private def isFraction (text : List Char) : Bool :=
  isExponent (text.dropWhile fun c => isDigit c || c == '_')

private def isFloat (text : List Char) : Bool :=
  let unsigned := dropSign text
  let whole := unsigned.takeWhile (· != '.')
  match unsigned.drop whole.length with
  | '.' :: fraction =>
      if whole.isEmpty then
        let name := String.ofList fraction
        ["inf", "Inf", "INF"].contains name ||
          (unsigned.length == text.length &&
            (["nan", "NaN", "NAN"].contains name ||
              isDigit (fraction.headD ' ') && isFraction fraction))
      else
        isDecimal whole && isFraction fraction ||
          isSexagesimal whole && fraction.all fun c => isDigit c || c == '_'
  | _ => false

private def trueWords : List String :=
  ["yes", "Yes", "YES", "true", "True", "TRUE", "on", "On", "ON"]

private def falseWords : List String :=
  ["no", "No", "NO", "false", "False", "FALSE", "off", "Off", "OFF"]

private def nullWords : List String := ["", "~", "null", "Null", "NULL"]

/-- The tag that a plain text has without being given one. -/
def implicitTag (text : String) : String :=
  let letters := text.toList
  standardTag
    (if trueWords.contains text || falseWords.contains text then "bool"
    else if isFloat letters then "float"
    else if isInteger letters then "int"
    else if text == "<<" then "merge"
    else if nullWords.contains text then "null"
    else if Timestamp.isWritten letters then "timestamp"
    else if text == "=" then "value"
    else "str")

/-! ## Meanings -/

private def illFormed (text : String) : Fault := .value s!"invalid literal: '{text}'"

/-- The number that digits of a base stand for. -/
private def ofDigits? (base : Nat) (digits : List Char) : Option Int := do
  if digits.isEmpty then none
  else
    let n ← digits.foldlM
      (fun n c => do
        let d ← hexValue? c
        if d < base then some (base * n + d) else none)
      0
    some (Int.ofNat n)

/-- Splits off a sign; true is a minus. An empty text has nothing in front. -/
private def signed (text : String) : Except Fault (Bool × List Char) :=
  match (text.toList.filter (· != '_')) with
  | [] => .error .index
  | '-' :: rest => .ok (true, rest)
  | '+' :: rest => .ok (false, rest)
  | letters => .ok (false, letters)

private def integerValue (text : String) : Except Fault Datum := do
  let (negative, letters) ← signed text
  let found ←
    match letters with
    | [] => throw Fault.index
    | ['0'] => pure (some 0)
    | '0' :: 'b' :: digits => pure (ofDigits? 2 digits)
    | '0' :: 'x' :: digits => pure (ofDigits? 16 digits)
    | '0' :: digits => pure (ofDigits? 8 digits)
    | _ =>
        pure do
          let parts ← (sexagesimalParts letters).mapM fun part =>
            readInteger? (String.ofList part)
          some (parts.foldl (fun n part => 60 * n + part) 0)
  match found with
  | some n => return .int (if negative then -n else n)
  | none => throw (illFormed text)

/-- The value of a number in base sixty, whose parts are added up from the last one
on. -/
private def sexagesimalSum : List Binary64 → Nat → Binary64 → Binary64
  | [], _, sum => sum
  | part :: rest, weight, sum =>
      let product :=
        match Binary64.ofInt? weight with
        | some weight => part.mul weight
        | none => .infinity false
      sexagesimalSum rest (60 * weight) (sum.add product)

private def zero : Binary64 := .ofMagnitude false 0

private def floatValue (text : String) : Except Fault Datum := do
  let (negative, letters) ← signed text
  let letters := letters.map Char.toLower
  let found ←
    if letters == ".inf".toList then pure (some (.infinity false))
    else if letters == ".nan".toList then pure (some .nan)
    else
      pure do
        let parts ← (sexagesimalParts letters).mapM fun part =>
          readFloat? (String.ofList part)
        match parts with
        | [single] => some single
        | parts => some (sexagesimalSum parts.reverse 1 zero)
  match found with
  | some x => return .float (if negative && !x.isNaN then x.neg else x)
  | none => throw (illFormed text)

private def booleanValue (text : String) : Except Fault Datum :=
  let lower := String.ofList (text.toList.map Char.toLower)
  if trueWords.contains lower then .ok (.bool true)
  else if falseWords.contains lower then .ok (.bool false)
  else .error (.key (quotedText lower))

private def timestampValue (text : String) : Except Fault Datum :=
  match Timestamp.read? text.toList with
  | none => .error (.member "not a timestamp")
  | some timestamp =>
      if timestamp.isValid then .ok timestamp.datum
      else .error (.value "no such time")

private def binaryValue (text : String) : Except Fault Datum :=
  match Base64.decode? text.toList with
  | some bytes => .ok (.atom (.bytes bytes))
  | none => .error (malformed "failed to decode binary data")

/-- What a scalar stands for. -/
def scalarValue (tag text : String) : Except Fault Datum :=
  if tag == standardTag "str" then .ok (.str text)
  else if tag == standardTag "null" then .ok .none
  else if tag == standardTag "bool" then booleanValue text
  else if tag == standardTag "int" then integerValue text
  else if tag == standardTag "float" then floatValue text
  else if tag == standardTag "timestamp" then timestampValue text
  else if tag == standardTag "binary" then binaryValue text
  else .error (malformed s!"could not determine a constructor for the tag '{tag}'")

end TorchArchive.Yaml
