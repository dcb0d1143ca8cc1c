import TorchArchive.Atom
import TorchArchive.Text.Quoted

/-!
Tokens of source text, and what literals of text and bytes stand for.
-/

namespace TorchArchive.Script

/-- A literal as it stands between its quotes, with what its letters in front of
the quotes say about it. -/
structure TextLiteral where
  bytes : Bool
  raw : Bool
  /-- Whether expressions may stand between braces. -/
  formatted : Bool
  /-- Whether the literal is marked as text without need. -/
  marked : Bool
  body : List Char
  deriving DecidableEq, Inhabited

inductive Token where
  | name (name : String)
  | keyword (word : String)
  | symbol (spelling : String)
  | number (value : Atom)
  | text (literal : TextLiteral)
  | newline
  | indent
  | dedent
  deriving DecidableEq, Inhabited

/-- A token with the line that it begins in. -/
structure Lexeme where
  token : Token
  line : Nat
  deriving DecidableEq, Inhabited

/-- The words that are no names. -/
def keywords : List String :=
  ["False", "None", "True", "and", "as", "assert", "async", "await", "break",
    "class", "continue", "def", "del", "elif", "else", "except", "finally", "for",
    "from", "global", "if", "import", "in", "is", "lambda", "nonlocal", "not", "or",
    "pass", "raise", "return", "try", "while", "with", "yield"]

/-- The symbols, longer ones before their beginnings. -/
def symbols : List String :=
  ["**=", "//=", ">>=", "<<=", "...", "->", ":=", "==", "!=", "<=", ">=", "<<",
    ">>", "**", "//", "+=", "-=", "*=", "/=", "%=", "&=", "|=", "^=", "@=", "(",
    ")", "[", "]", "\x7b", "\x7d", ":", ",", ";", "+", "-", "*", "/", "|", "&",
    "<", ">", "=", ".", "%", "^", "~", "@"]

/-! ## Literals

Their escapes are resolved, unless they are raw. -/

def isOctal (c : Char) : Bool := '0' ≤ c && c ≤ '7'

def octalWorth (digits : List Char) : Nat :=
  digits.foldl (fun n c => 8 * n + (c.toNat - '0'.toNat)) 0

/-- The number that hexadecimal digits denote. -/
def hexWorth? (digits : List Char) : Option Nat :=
  digits.foldlM (fun n c => (hexValue? c).map fun d => 16 * n + d) 0

/-- The code of an escape of a single letter. -/
def letterEscape? : Char → Option Nat
  | '\\' => some 0x5c
  | '\'' => some 0x27
  | '"' => some 0x22
  | 'a' => some 7
  | 'b' => some 8
  | 'f' => some 12
  | 'n' => some 10
  | 'r' => some 13
  | 't' => some 9
  | 'v' => some 11
  | _ => none

/-- The number of hexadecimal digits behind a letter that asks for them. -/
def hexWidth? (bytes : Bool) (c : Char) : Option Nat :=
  match c with
  | 'x' => some 2
  | 'u' => if bytes then none else some 4
  | 'U' => if bytes then none else some 8
  | _ => none

/-- The codes of the characters of a literal, with escapes resolved. An escape
that means nothing stands for itself. Characters are referred to by name
nowhere. -/
def resolve (bytes : Bool) : Nat → List Char → Option (List Nat)
  | 0, _ => none
  | _ + 1, [] => some []
  | fuel + 1, '\\' :: '\n' :: rest => resolve bytes fuel rest
  | fuel + 1, '\\' :: c :: rest =>
      match letterEscape? c with
      | some code => (resolve bytes fuel rest).map (code :: ·)
      | none =>
          if isOctal c then
            let digits := (c :: rest.take 2).takeWhile isOctal
            let code := octalWorth digits
            (resolve bytes fuel (rest.drop (digits.length - 1))).map
              ((if bytes then code % 256 else code) :: ·)
          else
            match hexWidth? bytes c with
            | some width =>
                if rest.length < width then none
                else do
                  let code ← hexWorth? (rest.take width)
                  if 0x10ffff < code then none
                  else (resolve bytes fuel (rest.drop width)).map (code :: ·)
            | none =>
                if c == 'N' && !bytes then none
                else (resolve bytes fuel (c :: rest)).map (0x5c :: ·)
  | fuel + 1, c :: rest => (resolve bytes fuel rest).map (c.toNat :: ·)

/-- The character of a code; a surrogate has none of its own. -/
def charOf (code : Nat) : Char :=
  if 0xd800 ≤ code && code < 0xe000 then '\ufffd' else Char.ofNat code

/-- The text of a literal. -/
def decodeText (raw : Bool) (body : List Char) : Option String :=
  if raw then some (String.ofList body)
  else
    (resolve false (body.length + 1) body).map fun codes =>
      String.ofList (codes.map charOf)

/-- The bytes of a literal, which is in ASCII. -/
def decodeBytes (raw : Bool) (body : List Char) : Option ByteArray :=
  if body.any fun c => 0x80 ≤ c.toNat then none
  else
    let codes :=
      if raw then some (body.map Char.toNat)
      else resolve true (body.length + 1) body
    codes.map fun codes => ⟨(codes.map Nat.toUInt8).toArray⟩

end TorchArchive.Script
