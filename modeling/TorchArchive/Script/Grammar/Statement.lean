import TorchArchive.Script.Grammar.Pattern

/-!
The grammar of statements.
-/

namespace TorchArchive.Script.Rule

open TorchArchive.Script.Parser

variable (inner : Grammar)

/-! ## Simple statements -/

/-- The right side of an assignment. -/
def assigned : Parser Term := yielding inner <|> starExpressions inner

/-- The operators that change what a name is bound to. -/
def changes : List String :=
  ["+=", "-=", "*=", "@=", "/=", "%=", "&=", "|=", "^=", "<<=", ">>=", "**=", "//="]

/-- Further sides of an assignment behind its first target. -/
def furtherSides : Parser (List Term) :=
  some1 do
    symbol "="
    assigned inner

/-- An assignment of any kind, or an expression. -/
def assignment : Parser Phrase := do
  let line ← line
  let first ← assigned inner
  if ← perhapsSymbol ":" then
    if !first.isSingleTarget then failure
    else
      let _ ← inner.expression
      if ← perhapsSymbol "=" then return .annotated first (some (← assigned inner))
      else return .annotated first none
  else if ← isSymbolNext "=" then
    let sides := first :: (← furtherSides inner)
    let targets := sides.dropLast
    if targets.all Term.isTarget then
      return .assign targets (sides.getLast?.getD default)
    else failure
  else
    match ← perhaps (oneOf changes) with
    | some _ =>
        let _ ← assigned inner
        if first.isSingleTarget then return .other "AugAssign" line else failure
    | none => return .expression first line

def dottedName : Parser String := do
  return ".".intercalate (← separated "." name)

def otherName : Parser (Option String) := do
  if (← perhaps (keyword "as")).isSome then return some (← name) else return none

def imported : Parser (String × Option String) := do
  let package ← dottedName
  return (package, ← otherName)

/-- The names that are imported from a package. -/
def importedNames : Parser Unit := do
  let item : Parser Unit := do
    let _ ← name
    let _ ← otherName
  if ← perhapsSymbol "*" then return
  else if ← perhapsSymbol "(" then
    let _ ← commaList item
    symbol ")"
  else
    let _ ← separated "," item

def importFrom : Parser Unit := do
  keyword "from"
  let dots ← many (oneOf [".", "..."])
  let package ← perhaps dottedName
  if dots.isEmpty && package.isNone then failure
  else
    keyword "import"
    importedNames

def deletion : Parser Unit := do
  keyword "del"
  let targets ← starExpressions inner
  if !targets.isDeletable then failure

def raising : Parser Unit := do
  keyword "raise"
  match ← perhaps inner.expression with
  | none => return
  | some _ =>
      if (← perhaps (keyword "from")).isSome then
        let _ ← inner.expression

def assertion : Parser Unit := do
  keyword "assert"
  let _ ← inner.expression
  if ← perhapsSymbol "," then
    let _ ← inner.expression

def names (word : String) : Parser Unit := do
  keyword word
  let _ ← separated "," name

def other (form : String) (parser : Parser Unit) : Parser Phrase := do
  let line ← line
  parser
  return .other form line

def simple : Parser Phrase :=
  (do
    keyword "return"
    return .returns (← perhaps (starExpressions inner))) <|>
  (do
    keyword "import"
    return .imports (← separated "," imported)) <|>
  (do keyword "pass"; return .pass) <|>
  other "ImportFrom" importFrom <|> other "Raise" (raising inner) <|>
  other "Delete" (deletion inner) <|> other "Assert" (assertion inner) <|>
  other "Break" (keyword "break") <|> other "Continue" (keyword "continue") <|>
  other "Global" (names "global") <|> other "Nonlocal" (names "nonlocal") <|>
  assignment inner

/-- Simple statements in one line. -/
def simples : Parser (List Phrase) := do
  let found ← separated ";" (simple inner)
  let _ ← perhapsSymbol ";"
  token .newline
  return found

/-! ## Compound statements -/

/-- The statements that belong to the line in front of them. -/
def block : Parser (List Phrase) := do
  symbol ":"
  if (← perhaps (token .newline)).isSome then
    token .indent
    let found ← some1 inner.statement
    token .dedent
    return found.flatten
  else simples inner

def otherwise : Parser (List Phrase) := do
  if (← perhaps (keyword "else")).isSome then block inner else return []

/-- The rest of a conditional statement behind its first word. -/
def branchesWithin : Nat → Parser Phrase
  | 0 => failure
  | fuel + 1 => do
      let condition ← named inner
      let taken ← block inner
      if (← perhaps (keyword "elif")).isSome then
        return .branch condition taken [← branchesWithin fuel]
      else return .branch condition taken (← otherwise inner)

def branch : Parser Phrase := do
  keyword "if"
  branchesWithin inner (← tokenBound)

def functionDef : Parser Phrase := do
  keyword "def"
  let name ← name
  symbol "("
  let note : Parser Unit := do
    if ← perhapsSymbol ":" then
      let _ ← inner.expression
  let starNote : Parser Unit := do
    if ← perhapsSymbol ":" then
      if ← perhapsSymbol "*" then
        let _ ← bitwiseOr inner
      else
        let _ ← inner.expression
  let found ← parameters inner note starNote
  symbol ")"
  if ← perhapsSymbol "->" then
    let _ ← inner.expression
  return .functionDef name (ParameterForm.positional found) (← block inner)

def classDef : Parser Phrase := do
  keyword "class"
  let name ← name
  let bases ←
    if ← perhapsSymbol "(" then (·.1) <$> arguments inner failure
    else pure []
  return .classDef name bases (← block inner)

def loop : Parser Unit := do
  keyword "for"
  let _ ← targets inner
  keyword "in"
  let _ ← starExpressions inner
  let _ ← block inner
  let _ ← otherwise inner

def repetition : Parser Unit := do
  keyword "while"
  let _ ← named inner
  let _ ← block inner
  let _ ← otherwise inner

def resource : Parser Unit := do
  let _ ← inner.expression
  if (← perhaps (keyword "as")).isSome then
    let _ ← target inner
    let bounded := (← isSymbolNext ",") || (← isSymbolNext ")") || (← isSymbolNext ":")
    if !bounded then failure

def resources : Parser Unit :=
  (do
    symbol "("
    let _ ← commaList (resource inner)
    symbol ")"
    if !(← isSymbolNext ":") then failure) <|>
  (do
    let _ ← separated "," (resource inner))

def within : Parser Unit := do
  keyword "with"
  resources inner
  let _ ← block inner

/-- A clause that handles failures; true if it handles groups of them. -/
def handler : Parser Bool := do
  keyword "except"
  let grouped ← perhapsSymbol "*"
  if grouped || !(← isSymbolNext ":") then
    let _ ← inner.expression
    let _ ← otherName
  let _ ← block inner
  return grouped

def attempt : Parser Phrase := do
  let line ← line
  keyword "try"
  let _ ← block inner
  let handlers ← many (handler inner)
  if !handlers.isEmpty then
    let _ ← otherwise inner
  let final := (← perhaps (keyword "finally")).isSome
  if final then
    let _ ← block inner
  if handlers.isEmpty && !final then failure
  else if handlers.all id && !handlers.isEmpty then return .other "TryStar" line
  else if handlers.any id then failure
  else return .other "Try" line

def case : Parser Unit := do
  softKeyword "case"
  casePattern inner
  if (← perhaps (keyword "if")).isSome then
    let _ ← named inner
  let _ ← block inner

/-- The subject of a case distinction: an expression, or several of which even a
single one may be starred before a comma. -/
def subject : Parser Unit := do
  let starred ← isSymbolNext "*"
  let (_, several) ← commaList (starNamed inner)
  if starred && !several then failure

def distinctionHead : Parser Unit := do
  softKeyword "match"
  subject inner
  symbol ":"
  token .newline
  token .indent

def distinction : Parser Phrase := do
  let line ← line
  distinctionHead inner
  let _ ← some1 (case inner)
  token .dedent
  return .other "Match" line

def asynchronous : Parser Phrase := do
  let line ← line
  keyword "async"
  (do
    let _ ← functionDef inner
    return .other "AsyncFunctionDef" line) <|>
  (do
    loop inner
    return .other "AsyncFor" line) <|>
  (do
    within inner
    return .other "AsyncWith" line)

def isDefinition : Phrase → Bool
  | .functionDef _ _ _ | .classDef _ _ _ => true
  | .other form _ => form == "AsyncFunctionDef"
  | _ => false

/-- A definition behind lines that change what it defines. -/
def decorated : Parser Phrase := do
  let _ ← some1 do
    symbol "@"
    let _ ← named inner
    token .newline
  let found ← functionDef inner <|> classDef inner <|> asynchronous inner
  if isDefinition found then return found else failure

def compound : Parser Phrase := do
  let next : Option Token := (← peek).map (·.token)
  match next with
  | some (.keyword "if") => branch inner
  | some (.keyword "def") => functionDef inner
  | some (.keyword "class") => classDef inner
  | some (.keyword "for") => other "For" (loop inner)
  | some (.keyword "while") => other "While" (repetition inner)
  | some (.keyword "with") => other "With" (within inner)
  | some (.keyword "try") => attempt inner
  | some (.keyword "async") => asynchronous inner
  | some (.symbol "@") => decorated inner
  | some (.name "match") => distinction inner
  | _ => failure

/-- The statements of a line, or one statement over several lines. -/
def statement : Parser (List Phrase) :=
  ((fun phrase => [phrase]) <$> compound inner) <|> simples inner

end TorchArchive.Script.Rule
