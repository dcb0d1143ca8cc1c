import TorchArchive.Script.Term
import TorchArchive.Script.Token

/-!
Parsers of token lists. A parser takes tokens from the front or fails; of two
alternatives the second is tried on the same tokens when the first fails.
-/

namespace TorchArchive.Script

/-- The tokens that are left, with a bound on their number that need not be counted
anew. -/
structure Tokens where
  list : List Lexeme
  bound : Nat
  length_le : list.length ≤ bound

namespace Tokens

def ofList (list : List Lexeme) : Tokens := ⟨list, list.length, Nat.le_refl _⟩

/-- The first token and those behind it. -/
def next? : Tokens → Option (Lexeme × Tokens)
  | ⟨[], _, _⟩ => none
  | ⟨lexeme :: rest, bound, length_le⟩ =>
      some (lexeme, ⟨rest, bound - 1, Nat.le_sub_one_of_lt length_le⟩)

end Tokens

/-- A parser of a prefix of the tokens. -/
abbrev Parser := StateT Tokens Option

namespace Parser

/-- Takes the token that a choice accepts. -/
def take (choose : Token → Option α) : Parser α := do
  match (← get).next? with
  | none => failure
  | some (lexeme, rest) =>
      match choose lexeme.token with
      | some a => do
          set rest
          return a
      | none => failure

/-- The next token, which is not taken. -/
def peek : Parser (Option Lexeme) := do return (← get).list.head?

/-- A bound on the number of tokens that are left. -/
def tokenBound : Parser Nat := do return (← get).bound

/-- Takes a given token. -/
def token (wanted : Token) : Parser Unit :=
  take fun token => if token = wanted then some () else none

def symbol (spelling : String) : Parser Unit := token (.symbol spelling)

def keyword (word : String) : Parser Unit := token (.keyword word)

def name : Parser String :=
  take fun
    | .name name => some name
    | _ => none

/-- Takes a name that counts as a keyword here. -/
def softKeyword (word : String) : Parser Unit := token (.name word)

/-- One of several symbols. -/
def oneOf (spellings : List String) : Parser String :=
  take fun
    | .symbol spelling => if spellings.contains spelling then some spelling else none
    | _ => none

/-- Whether a token comes next. -/
def isNext (wanted : Token) : Parser Bool := do
  return ((← peek).map (·.token)) == some wanted

def isSymbolNext (spelling : String) : Parser Bool := isNext (.symbol spelling)

def isKeywordNext (word : String) : Parser Bool := isNext (.keyword word)

/-- Whether the next two tokens are a name and a symbol. -/
def isNameBefore (spelling : String) : Parser Bool := do
  match (← get).list with
  | ⟨.name _, _⟩ :: ⟨.symbol next, _⟩ :: _ => return next == spelling
  | _ => return false

/-- The line of the next token. -/
def line : Parser Nat := do
  return ((← peek).map (·.line)).getD 0

/-- Fails if a symbol comes next. -/
def notBefore (spelling : String) : Parser Unit := do
  if ← isSymbolNext spelling then failure

def perhaps (parser : Parser α) : Parser (Option α) :=
  (some <$> parser) <|> pure none

/-- Takes a symbol if it comes next, and tells whether it did. -/
def perhapsSymbol (spelling : String) : Parser Bool := do
  return (← perhaps (symbol spelling)).isSome

def manyWithin (parser : Parser α) : Nat → Parser (List α)
  | 0 => return []
  | fuel + 1 => do
      match ← perhaps parser with
      | none => return []
      | some first => return first :: (← manyWithin parser fuel)

/-- Repeats a parser, which takes at least one token, as often as it succeeds. -/
def many (parser : Parser α) : Parser (List α) := do
  manyWithin parser (← tokenBound)

/-- Repeats a parser at least once. -/
def some1 (parser : Parser α) : Parser (List α) := do
  let first ← parser
  return first :: (← many parser)

/-- Repeats a parser with a symbol in between. -/
def separated (spelling : String) (parser : Parser α) : Parser (List α) := do
  let first ← parser
  let others ← many do
    symbol spelling
    parser
  return first :: others

/-- Repeats a parser with commas in between and perhaps one at the end; tells
whether there was a comma. -/
def commaList (parser : Parser α) : Parser (List α × Bool) := do
  let items ← separated "," parser
  let trailing ← perhapsSymbol ","
  return (items, trailing || 1 < items.length)

/-- Operators of one level, the leftmost of which is applied first. -/
def leftAssociative (spellings : List String) (operand : Parser Term) :
    Parser Term := do
  let first ← operand
  let others ← many do
    let spelling ← oneOf spellings
    return (spelling, ← operand)
  return others.foldl
    (fun left (spelling, right) => .binary spelling left right) first

end Parser

/-- The parsers that the grammar refers to before it has defined them. -/
structure Grammar where
  expression : Parser Term
  inversion : Parser Term
  factor : Parser Term
  primary : Parser Term
  pattern : Parser Unit
  statement : Parser (List Phrase)
  /-- Whether the text between braces in a literal is made of expressions. -/
  isFormatted : TextLiteral → Bool

/-- The grammar that accepts nothing. -/
def Grammar.nothing : Grammar :=
  ⟨failure, failure, failure, failure, failure, failure, fun _ => false⟩

instance : Inhabited Grammar := ⟨.nothing⟩

end TorchArchive.Script
