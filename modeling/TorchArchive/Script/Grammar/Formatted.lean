import TorchArchive.Script.Token

/-!
Formatted literals: text in which expressions stand between braces. Here the
expressions are only found; reading them is left to the caller.
-/

namespace TorchArchive.Script

/-- The part of a formatted literal that is read, and what was found so far: the
plain text in between and the expressions, both in reverse. -/
private structure Found where
  plain : List Char
  expressions : List (List Char)

/-- How far an expression between braces goes: the open brackets and the quote
that it is inside of. -/
private structure Nesting where
  brackets : List Char
  quote : Option (Char × Nat)

private def isOpening (c : Char) : Bool := c == '(' || c == '[' || c == '\x7b'

private def isClosing (c : Char) : Bool := c == ')' || c == ']' || c == '\x7d'

private def matching (opening closing : Char) : Bool :=
  (opening == '(' && closing == ')') || (opening == '[' && closing == ']') ||
    (opening == '\x7b' && closing == '\x7d')

private def startsWith (quote : Char) (width : Nat) (input : List Char) : Bool :=
  (List.replicate width quote).isPrefixOf input

/-- Reads an expression up to the character that ends it: an exclamation mark, a
colon, an equals sign or a closing brace outside of brackets and quotes. The
characters of the expression are kept in reverse. -/
private def expressionEnd (done : List Char) (nesting : Nesting) :
    Nat → List Char → Option (List Char × List Char)
  | 0, _ => none
  | _ + 1, [] => none
  | fuel + 1, c :: rest =>
      if c == '\\' then none
      else
        match nesting.quote with
        | some (quote, width) =>
            if startsWith quote width (c :: rest) then
              expressionEnd (List.replicate width quote ++ done)
                { nesting with quote := none } fuel ((c :: rest).drop width)
            else expressionEnd (c :: done) nesting fuel rest
        | none =>
            if c == '\'' || c == '"' then
              let width := if startsWith c 3 (c :: rest) then 3 else 1
              expressionEnd (List.replicate width c ++ done)
                { nesting with quote := some (c, width) } fuel
                ((c :: rest).drop width)
            else if isOpening c then
              expressionEnd (c :: done)
                { nesting with brackets := c :: nesting.brackets } fuel rest
            else if c == '#' then none
            else
              match nesting.brackets with
              | opening :: outer =>
                  if isClosing c then
                    if matching opening c then
                      expressionEnd (c :: done)
                        { nesting with brackets := outer } fuel rest
                    else none
                  else expressionEnd (c :: done) nesting fuel rest
              | [] =>
                  if c == '!' || c == '=' || c == '<' || c == '>' then
                    if rest.head? == some '=' then
                      expressionEnd ('=' :: c :: done) nesting fuel (rest.drop 1)
                    else if c == '!' || c == '=' then some (done.reverse, c :: rest)
                    else expressionEnd (c :: done) nesting fuel rest
                  else if c == ':' || c == '\x7d' then some (done.reverse, c :: rest)
                  else if isClosing c then none
                  else expressionEnd (c :: done) nesting fuel rest

private def isBlankChar (c : Char) : Bool :=
  c == ' ' || c == '\t' || c == '\n' || c == '\x0c' || c == '\r'

/-- Drops the sign that asks for the text of an expression itself. -/
private def afterEquals (input : List Char) : List Char :=
  match input with
  | '=' :: rest => rest.dropWhile isBlankChar
  | input => input

/-- Drops a conversion; none if it is no known one. -/
private def afterConversion? (input : List Char) : Option (List Char) :=
  match input with
  | '!' :: c :: rest =>
      if c == 's' || c == 'r' || c == 'a' then some rest else none
  | ['!'] => none
  | input => some input

/-- Goes through a literal at a depth of format specifications, up to its end or to
the brace that closes the specification. -/
private def scan (raw : Bool) (found : Found) :
    Nat → Nat → List Char → Option (Found × List Char)
  | 0, _, _ => none
  | _ + 1, depth, [] => if depth = 0 then some (found, []) else none
  | fuel + 1, depth, '\x7b' :: rest =>
      if depth = 0 ∧ rest.head? = some '\x7b' then
        scan raw found fuel depth (rest.drop 1)
      else if 2 ≤ depth then none
      else do
        let (expression, behind) ← expressionEnd [] ⟨[], none⟩ (rest.length + 1) rest
        if expression.all isBlankChar then none
        else
          let found := { found with expressions := expression :: found.expressions }
          match ← afterConversion? (afterEquals behind) with
          | '\x7d' :: rest => scan raw found fuel depth rest
          | ':' :: rest =>
              match ← scan raw found fuel (depth + 1) rest with
              | (found, '\x7d' :: rest) => scan raw found fuel depth rest
              | _ => none
          | _ => none
  | fuel + 1, depth, '\x7d' :: rest =>
      if 0 < depth then some (found, '\x7d' :: rest)
      else if rest.head? = some '\x7d' then scan raw found fuel depth (rest.drop 1)
      else none
  | fuel + 1, depth, '\\' :: c :: rest =>
      if raw || c == '\x7b' || c == '\x7d' then
        scan raw { found with plain := '\\' :: found.plain } fuel depth (c :: rest)
      else
        scan raw { found with plain := c :: '\\' :: found.plain } fuel depth rest
  | fuel + 1, depth, c :: rest =>
      scan raw { found with plain := c :: found.plain } fuel depth rest

/-- The expressions in a formatted literal; none if its braces do not match or its
plain text is no text. -/
def formattedExpressions? (literal : TextLiteral) : Option (List (List Char)) := do
  let length := literal.body.length
  let (found, _) ← scan literal.raw ⟨[], []⟩ (2 * length + 2) 0 literal.body
  let _ ← decodeText literal.raw found.plain.reverse
  some found.expressions.reverse

end TorchArchive.Script
