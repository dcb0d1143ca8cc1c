import TorchArchive.Script.Grammar.Expression

/-!
The grammar of patterns. Nothing is kept of a pattern but that it is one.
-/

namespace TorchArchive.Script.Rule

open TorchArchive.Script.Parser

variable (inner : Grammar)

/-- A name that a pattern binds. -/
private def captureName : Parser Unit := do
  let name ← name
  if name == "_" || (← isSymbolNext ".") || (← isSymbolNext "(") ||
      (← isSymbolNext "=") then
    failure

private def wildcard : Parser Unit := softKeyword "_"

/-- A name or a chain of members. -/
private def dotted : Parser Nat := do
  let parts ← separated "." name
  return parts.length

private def isImaginary : Atom → Bool
  | .imaginary _ => true
  | _ => false

private def signed : Parser Atom := do
  let _ ← perhapsSymbol "-"
  take fun
    | .number value => some value
    | _ => none

/-- A number, or the sum of a real and an imaginary one. -/
private def numberPattern : Parser Unit := do
  let real ← signed
  match ← perhaps (oneOf ["+", "-"]) with
  | none => return
  | some _ =>
      let imaginary ← take fun
        | .number value => some value
        | _ => none
      if isImaginary real || !isImaginary imaginary then failure

/-- Adjacent literals, none of which holds expressions. -/
private def textPattern : Parser Unit := do
  let found ← some1 <| take fun
    | .text literal => some literal
    | _ => none
  let bytes := found.any (·.bytes)
  if bytes && !found.all (·.bytes) then failure
  else
    for literal in found do
      if literal.formatted then
        if !inner.isFormatted literal then failure
      else if bytes then
        if (decodeBytes literal.raw literal.body).isNone then failure
      else if (decodeText literal.raw literal.body).isNone then failure

private def wordPattern : Parser Unit :=
  keyword "None" <|> keyword "True" <|> keyword "False"

private def literalPattern : Parser Unit :=
  numberPattern <|> textPattern inner <|> wordPattern

private def valuePattern : Parser Unit := do
  let parts ← dotted
  if parts < 2 || (← isSymbolNext "(") || (← isSymbolNext "=") then failure

private def starPattern : Parser Unit := do
  symbol "*"
  captureName <|> wildcard

private def itemPattern : Parser Unit := starPattern <|> inner.pattern

/-- Patterns between brackets, without the opening one. -/
private def itemsUpTo (closing : String) : Parser Unit := do
  if ← perhapsSymbol closing then return
  else
    let _ ← commaList (itemPattern inner)
    symbol closing

/-- A pattern in parentheses, or several that make a sequence. -/
private def parenthesizedPattern : Parser Unit := do
  symbol "("
  if ← perhapsSymbol ")" then return
  else
    let starred ← isSymbolNext "*"
    let (_, several) ← commaList (itemPattern inner)
    symbol ")"
    if starred && !several then failure

private def mappingItem : Parser Bool := do
  if ← perhapsSymbol "**" then
    captureName
    return true
  else
    (valueKey <|> literalPattern inner)
    symbol ":"
    inner.pattern
    return false
where
  valueKey : Parser Unit := do
    let parts ← dotted
    if parts < 2 then failure

private def mappingPattern : Parser Unit := do
  symbol "\x7b"
  if ← perhapsSymbol "\x7d" then return
  else
    let (found, _) ← commaList (mappingItem inner)
    symbol "\x7d"
    if found.dropLast.any id then failure

/-- An argument of a class pattern; true if it is named. -/
private def classItem : Parser Bool := do
  if ← isNameBefore "=" then
    let _ ← name
    symbol "="
    inner.pattern
    return true
  else
    inner.pattern
    return false

private def namedLast : List Bool → Bool
  | [] => true
  | named :: rest => (!named || rest.all id) && namedLast rest

private def classPattern : Parser Unit := do
  let _ ← dotted
  symbol "("
  if ← perhapsSymbol ")" then return
  else
    let (found, _) ← commaList (classItem inner)
    symbol ")"
    if !namedLast found then failure

private def closedPattern : Parser Unit :=
  classPattern inner <|> valuePattern <|> captureName <|> wildcard <|>
    literalPattern inner <|> parenthesizedPattern inner <|>
    (do symbol "["; itemsUpTo inner "]") <|> mappingPattern inner

/-- Alternatives, perhaps bound to a name. -/
def pattern : Parser Unit := do
  let _ ← separated "|" (closedPattern inner)
  if (← perhaps (keyword "as")).isSome then captureName

/-- The pattern of a case, which may be a sequence without brackets. -/
def casePattern : Parser Unit := do
  let starred ← isSymbolNext "*"
  let (_, several) ← commaList (itemPattern inner)
  if starred && !several then failure

end TorchArchive.Script.Rule
