import TorchArchive.Character.Printable

/-!
Quoted text. A string or a run of bytes is written between quotes, single ones
unless that would cost an escape that double ones save; what cannot be printed
is written by its code.
-/

namespace TorchArchive

/-! ## Hexadecimal digits -/

/-- The hexadecimal digits of a number, padded with zeros to a width. -/
def hexDigits (width n : Nat) : List Char :=
  let digits := Nat.toDigits 16 n
  List.replicate (width - digits.length) '0' ++ digits

/-- The value of a hexadecimal digit of either case. -/
def hexValue? (c : Char) : Option Nat :=
  if '0' ≤ c ∧ c ≤ '9' then some (c.toNat - '0'.toNat)
  else if 'a' ≤ c ∧ c ≤ 'f' then some (c.toNat - 'a'.toNat + 10)
  else if 'A' ≤ c ∧ c ≤ 'F' then some (c.toNat - 'A'.toNat + 10)
  else none

/-- Bytes as hexadecimal digits, two for each. -/
def hexText (bytes : ByteArray) : String :=
  String.ofList (bytes.toList.flatMap fun byte => hexDigits 2 byte.toNat)

private def bytesOfHex : List Char → Option (List UInt8)
  | [] => some []
  | high :: low :: rest => do
      let h ← hexValue? high
      let l ← hexValue? low
      let bytes ← bytesOfHex rest
      return (16 * h + l).toUInt8 :: bytes
  | _ => none

/-- Reads hexadecimal digits, two for each byte. -/
def bytesOfHexText? (text : String) : Option ByteArray :=
  (bytesOfHex text.toList).map fun bytes => ⟨bytes.toArray⟩

/-! ## Quotes and escapes -/

/-- The quote that encloses a text: double ones if it holds single ones and no
double ones. -/
def enclosingQuote (text : List Char) : Char :=
  if text.contains '\'' && !text.contains '"' then '"' else '\''

def controlEscape? : Char → Option (List Char)
  | '\n' => some ['\\', 'n']
  | '\r' => some ['\\', 'r']
  | '\t' => some ['\\', 't']
  | _ => none

/-- Writes a character by its code, in the shortest of three widths. -/
def codeEscape (code : Nat) : List Char :=
  if code < 0x100 then '\\' :: 'x' :: hexDigits 2 code
  else if code < 0x10000 then '\\' :: 'u' :: hexDigits 4 code
  else '\\' :: 'U' :: hexDigits 8 code

/-- Writes one character between the given quotes. -/
def quotedChar (quote c : Char) : List Char :=
  if c = quote ∨ c = '\\' then ['\\', c]
  else
    match controlEscape? c with
    | some escape => escape
    | none => if isPrintable c then [c] else codeEscape c.toNat

/-- A text between quotes. -/
def quotedText (text : String) : String :=
  let quote := enclosingQuote text.toList
  String.ofList
    (quote :: (text.toList.flatMap (quotedChar quote) ++ [quote]))

private def quotedByte (quote : Char) (byte : UInt8) : List Char :=
  let c := Char.ofNat byte.toNat
  if 0x20 ≤ byte ∧ byte < 0x7f then
    if c = quote ∨ c = '\\' then ['\\', c] else [c]
  else (controlEscape? c).getD (codeEscape byte.toNat)

/-- Bytes between quotes, marked by a leading letter. -/
def quotedBytes (bytes : ByteArray) : String :=
  let quote := enclosingQuote (bytes.toList.map fun byte => Char.ofNat byte.toNat)
  String.ofList
    ('b' :: quote :: (bytes.toList.flatMap (quotedByte quote) ++ [quote]))

end TorchArchive
