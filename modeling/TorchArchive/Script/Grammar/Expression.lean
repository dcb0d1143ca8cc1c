import TorchArchive.Script.Grammar.Parser
import TorchArchive.Script.Token

/-!
The grammar of expressions, one function for each level of precedence. What is
nested deeper is left to the grammar given.
-/

namespace TorchArchive.Script.Rule

open TorchArchive.Script.Parser

variable (inner : Grammar)

/-! ## Names and stars -/

/-- An expression that may bind a name to its value. -/
def named : Parser Term := do
  if ← isNameBefore ":=" then
    let target ← name
    symbol ":="
    return .named (.name target) (← inner.expression)
  else
    let value ← inner.expression
    notBefore ":="
    return value

/-! ## Literals -/

/-- The constant of adjacent literals; a formatted one among them makes the whole
formatted. -/
def joinLiterals (literals : List TextLiteral) : Option Term :=
  if literals.any (·.bytes) then
    if literals.all (·.bytes) then do
      let parts ← literals.mapM fun literal => decodeBytes literal.raw literal.body
      some (.constant (.bytes (parts.foldl (· ++ ·) .empty)) false)
    else none
  else if literals.any (·.formatted) then do
    for literal in literals do
      if literal.formatted then
        if !inner.isFormatted literal then none
      else
        let _ ← decodeText literal.raw literal.body
    some .formatted
  else do
    let parts ← literals.mapM fun literal => decodeText literal.raw literal.body
    some (.constant (.str (String.join parts)) (literals.head?.any (·.marked)))

def literals : Parser Term := do
  let parts ← some1 <| take fun
    | .text literal => some literal
    | _ => none
  match joinLiterals inner parts with
  | some term => return term
  | none => failure

def numeral : Parser Term :=
  take fun
    | .number value => some (.constant value false)
    | _ => none

def wordConstant : Parser Term :=
  take fun
    | .keyword "None" => some (.constant .none false)
    | .keyword "True" => some (.constant (.bool true) false)
    | .keyword "False" => some (.constant (.bool false) false)
    | .symbol "..." => some (.constant .ellipsis false)
    | _ => none

/-! ## Calls, members and items -/

/-- An argument of a call. -/
inductive Argument where
  | positional (value : Term)
  | starred (value : Term)
  | keyword (name : String) (value : Term)
  | unpacked (value : Term)

namespace Argument

/-- Whether arguments stand in order: positional ones in front of named ones,
starred ones in front of unpacked ones. -/
def inOrder : Bool → Bool → List Argument → Bool
  | _, _, [] => true
  | named, unpacking, positional _ :: rest =>
      !named && inOrder named unpacking rest
  | named, unpacking, starred _ :: rest =>
      !unpacking && inOrder named unpacking rest
  | _, unpacking, keyword _ _ :: rest => inOrder true unpacking rest
  | _, _, unpacked _ :: rest => inOrder true true rest

def positional? : Argument → Option Term
  | positional value => some value
  | starred value => some (.starred value)
  | _ => none

def keyword? : Argument → Option (Option String × Term)
  | keyword name value => some (some name, value)
  | unpacked value => some (none, value)
  | _ => none

end Argument

def argument : Parser Argument := do
  if ← perhapsSymbol "**" then return .unpacked (← inner.expression)
  else if ← perhapsSymbol "*" then return .starred (← inner.expression)
  else if ← isNameBefore "=" then
    let name ← name
    symbol "="
    return .keyword name (← inner.expression)
  else
    let value ← named inner
    notBefore "="
    return .positional value

/-- The arguments of a list in their two groups. -/
def grouped (found : List Argument) :
    Parser (List Term × List (Option String × Term)) :=
  if Argument.inOrder false false found then
    return (found.filterMap Argument.positional?, found.filterMap Argument.keyword?)
  else failure

/-- The arguments of a call or of a class up to the closing parenthesis; a single
loop needs no parentheses of its own. -/
def arguments (clause : Parser LoopClause) :
    Parser (List Term × List (Option String × Term)) := do
  if ← perhapsSymbol ")" then return ([], [])
  else
    let first ← argument inner
    match first, ← many clause with
    | .positional element, clause :: clauses =>
        symbol ")"
        return ([.gather .generator element (clause :: clauses)], [])
    | _, _ :: _ => failure
    | first, [] =>
        let others ← many do
          symbol ","
          argument inner
        let _ ← perhapsSymbol ","
        symbol ")"
        grouped (first :: others)

def bound : Parser (Option Term) := do
  if (← isSymbolNext ":") || (← isSymbolNext "]") || (← isSymbolNext ",") then
    return none
  else return some (← inner.expression)

/-- The rest of a range behind its first colon. -/
def rangeFrom (lower : Option Term) : Parser Term := do
  let upper ← bound inner
  let step ← if ← perhapsSymbol ":" then bound inner else pure none
  return .slice lower upper step

def index : Parser Term := do
  if ← perhapsSymbol "*" then return .starred (← inner.expression)
  else if ← perhapsSymbol ":" then rangeFrom inner none
  else if ← isNameBefore ":=" then named inner
  else
    let value ← inner.expression
    if ← perhapsSymbol ":" then rangeFrom inner (some value)
    else
      notBefore ":="
      return value

/-- What stands between the brackets of an item: several indices, or a starred
one, make a tuple. -/
def indices : Parser Term := do
  let (found, several) ← commaList (index inner)
  match found, several with
  | [.starred value], false => return .tuple [.starred value]
  | [single], false => return single
  | _, _ => return .tuple found

/-! ## Levels that bind tightly -/

/-- A target of a binding: a term that starts with an atom, perhaps starred. -/
def target : Parser Term := do
  let target ←
    if ← perhapsSymbol "*" then Term.starred <$> inner.primary else inner.primary
  if target.isTarget then return target else failure

/-- The targets of a loop. -/
def targets : Parser Term := do
  let (found, several) ← commaList (target inner)
  match found, several with
  | [single], false => return single
  | _, _ => return .tuple found

/-- Operators between the levels of a factor and of a comparison. -/
def bitwiseOr : Parser Term :=
  let product := leftAssociative ["*", "/", "//", "%", "@"] inner.factor
  let sum := leftAssociative ["+", "-"] product
  let shift := leftAssociative ["<<", ">>"] sum
  let conjunction := leftAssociative ["&"] shift
  let exclusive := leftAssociative ["^"] conjunction
  leftAssociative ["|"] exclusive

def comparison : Parser Term := do
  let sign : Parser String :=
    oneOf ["==", "!=", "<=", "<", ">=", ">"] <|>
    (do keyword "not"; keyword "in"; return "not in") <|>
    (do keyword "in"; return "in") <|>
    (do keyword "is"; keyword "not"; return "is not") <|>
    (do keyword "is"; return "is")
  let first ← bitwiseOr inner
  let others ← many do
    let sign ← sign
    return (sign, ← bitwiseOr inner)
  return if others.isEmpty then first else .compare first others

/-- A negation or a comparison. -/
def inversion : Parser Term := do
  if ← isKeywordNext "not" then
    keyword "not"
    return .unary "not" (← inner.inversion)
  else comparison inner

def joined (word : String) (operand : Parser Term) : Parser Term := do
  let first ← operand
  let others ← many do
    keyword word
    operand
  return if others.isEmpty then first else .boolean word (first :: others)

/-- Conditions joined by words. -/
def disjunction : Parser Term := joined "or" (joined "and" (inversion inner))

/-- A term or several starred or plain ones, which make a tuple. -/
def tupleOf (element : Parser Term) : Parser Term := do
  let (found, several) ← commaList element
  match found, several with
  | [single], false => return single
  | _, _ => return .tuple found

def starredOr (plain : Parser Term) : Parser Term := do
  if ← perhapsSymbol "*" then return .starred (← bitwiseOr inner) else plain

def starNamed : Parser Term := starredOr inner (named inner)

/-- An expression, or several that make a tuple. -/
def starExpressions : Parser Term := tupleOf (starredOr inner inner.expression)

/-- A term that hands a value to the caller. -/
def yielding : Parser Term := do
  keyword "yield"
  if ← isKeywordNext "from" then
    keyword "from"
    return .yieldsFrom (← inner.expression)
  else return .yields (← perhaps (starExpressions inner))

/-! ## Loops inside of brackets -/

def clause : Parser LoopClause := do
  let awaited := (← perhaps (keyword "async")).isSome
  keyword "for"
  let target ← targets inner
  keyword "in"
  let sequence ← disjunction inner
  let conditions ← many do
    keyword "if"
    disjunction inner
  return .make awaited target sequence conditions

def isLoopNext : Parser Bool := do
  return (← isKeywordNext "for") || (← isKeywordNext "async")

def isStarred : Term → Bool
  | .starred _ => true
  | _ => false

/-! ## Brackets -/

/-- The rest of a list of terms behind its first one, up to a closing bracket. -/
def furtherTerms (closing : String) : Parser (List Term) := do
  if ← perhapsSymbol "," then
    if ← perhapsSymbol closing then return []
    else
      let (found, _) ← commaList (starNamed inner)
      symbol closing
      return found
  else
    symbol closing
    return []

/-- What stands between parentheses: a term, a tuple or a loop. -/
def parenthesized : Parser Term := do
  symbol "("
  if ← perhapsSymbol ")" then return .tuple []
  else if ← isKeywordNext "yield" then
    let value ← yielding inner
    symbol ")"
    return value
  else
    let first ← starNamed inner
    if ← isLoopNext then
      let clauses ← some1 (clause inner)
      symbol ")"
      if isStarred first then failure else return .gather .generator first clauses
    else if ← isSymbolNext "," then
      return .tuple (first :: (← furtherTerms inner ")"))
    else
      symbol ")"
      if isStarred first then failure else return first

def bracketed : Parser Term := do
  symbol "["
  if ← perhapsSymbol "]" then return .list []
  else
    let first ← starNamed inner
    if ← isLoopNext then
      let clauses ← some1 (clause inner)
      symbol "]"
      if isStarred first then failure else return .gather .list first clauses
    else return .list (first :: (← furtherTerms inner "]"))

/-- An entry of a dictionary. -/
def entry : Parser (Option Term × Term) := do
  if ← perhapsSymbol "**" then return (none, ← bitwiseOr inner)
  else
    let key ← inner.expression
    symbol ":"
    return (some key, ← inner.expression)

def furtherEntries : Parser (List (Option Term × Term)) := do
  if ← perhapsSymbol "," then
    if ← perhapsSymbol "\x7d" then return []
    else
      let (found, _) ← commaList (entry inner)
      symbol "\x7d"
      return found
  else
    symbol "\x7d"
    return []

/-- A dictionary behind the first of its keys and the colon. -/
def dictFrom (key : Term) : Parser Term := do
  let value ← inner.expression
  if ← isLoopNext then
    let clauses ← some1 (clause inner)
    symbol "\x7d"
    return .gatherDict key value clauses
  else return .dict ((some key, value) :: (← furtherEntries inner))

/-- A set behind the first of its items. -/
def setFrom (first : Term) : Parser Term := do
  if ← isLoopNext then
    let clauses ← some1 (clause inner)
    symbol "\x7d"
    if isStarred first then failure else return .gather .set first clauses
  else return .set (first :: (← furtherTerms inner "\x7d"))

def braced : Parser Term := do
  symbol "\x7b"
  if ← perhapsSymbol "\x7d" then return .dict []
  else if ← isSymbolNext "**" then
    let first ← entry inner
    return .dict (first :: (← furtherEntries inner))
  else
    let naming ← isNameBefore ":="
    let first ← starNamed inner
    if !naming && !isStarred first then
      if ← perhapsSymbol ":" then dictFrom inner first else setFrom inner first
    else setFrom inner first

/-! ## Primaries -/

def atom : Parser Term :=
  (Term.name <$> name) <|> wordConstant <|> numeral <|> literals inner <|>
    parenthesized inner <|> bracketed inner <|>
    braced inner

/-- What can follow a primary: a member, arguments or an item. -/
def trailer : Parser (Term → Term) :=
  (do
    symbol "."
    let name ← name
    return fun target => .member target name) <|>
  (do
    symbol "("
    let (positional, keywords) ← arguments inner (clause inner)
    return fun target => .call target positional keywords) <|>
  (do
    symbol "["
    let index ← indices inner
    symbol "]"
    return fun target => .item target index)

/-- An atom with its trailers. -/
def primary : Parser Term := do
  let first ← atom inner
  let trailers ← many (trailer inner)
  return trailers.foldl (fun target trailer => trailer target) first

/-- A power, or a primary that is waited for. -/
def power : Parser Term := do
  let base ←
    if ← isKeywordNext "await" then do
      keyword "await"
      Term.awaits <$> primary inner
    else primary inner
  if ← perhapsSymbol "**" then return .binary "**" base (← inner.factor)
  else return base

/-- A signed factor or a power. -/
def factor : Parser Term := do
  match ← perhaps (oneOf ["+", "-", "~"]) with
  | some sign => return .unary sign (← inner.factor)
  | none => power inner

/-! ## Functions without a name -/

/-- A parameter of a function. -/
inductive ParameterForm where
  | slash
  | bareStar
  | star (name : String)
  | doubleStar (name : String)
  | plain (name : String) (default : Option Term)

namespace ParameterForm

/-- How far a list of parameters has got. -/
structure Progress where
  plain : Nat
  slash : Bool
  default : Bool
  star : Bool
  /-- Whether a star waits for a name. -/
  pending : Bool
  closed : Bool

/-- Takes one more parameter into account; none if it stands in a wrong place. -/
def advance (progress : Progress) (form : ParameterForm) : Option Progress :=
  if progress.closed then none
  else
    match form with
    | slash =>
        if progress.slash || progress.star || progress.plain == 0 then none
        else some { progress with slash := true }
    | bareStar =>
        if progress.star then none
        else some { progress with star := true, pending := true }
    | star _ => if progress.star then none else some { progress with star := true }
    | doubleStar _ =>
        if progress.pending then none else some { progress with closed := true }
    | plain _ default =>
        if progress.star then some { progress with pending := false }
        else if progress.default && default.isNone then none
        else
          some { progress with
            plain := progress.plain + 1
            default := progress.default || default.isSome }

/-- Whether parameters stand in order. -/
def inOrder (forms : List ParameterForm) : Bool :=
  match forms.foldlM advance ⟨0, false, false, false, false, false⟩ with
  | some progress => !progress.pending
  | none => false

/-- The names of the parameters that are given by position. -/
def positional : List ParameterForm → List String
  | plain name _ :: rest => name :: positional rest
  | slash :: rest => positional rest
  | _ => []

end ParameterForm

/-- The parameters of a function, given what may follow their names. -/
def parameters (note starNote : Parser Unit) :
    Parser (List ParameterForm) := do
  let parameter : Parser ParameterForm :=
    (do symbol "/"; return .slash) <|>
    (do
      symbol "**"
      let name ← name
      note
      return .doubleStar name) <|>
    (do
      symbol "*"
      match ← perhaps name with
      | some name =>
          starNote
          return .star name
      | none => return .bareStar) <|>
    (do
      let name ← name
      note
      if ← perhapsSymbol "=" then return .plain name (some (← inner.expression))
      else return .plain name none)
  match ← perhaps (commaList parameter) with
  | none => return []
  | some (found, _) => if ParameterForm.inOrder found then return found else failure

def lambdaParameter : ParameterForm → LambdaParameter
  | .slash => .make "/" none
  | .bareStar => .make "*" none
  | .star name => .make ("*" ++ name) none
  | .doubleStar name => .make ("**" ++ name) none
  | .plain name default => .make name default

def lambda : Parser Term := do
  keyword "lambda"
  let found ← parameters inner (pure ()) (pure ())
  symbol ":"
  return .function (found.map lambdaParameter) (← inner.expression)

def conditional : Parser Term := do
  let taken ← disjunction inner
  let rest ← perhaps do
    keyword "if"
    let condition ← disjunction inner
    keyword "else"
    return (condition, ← inner.expression)
  match rest with
  | some (condition, otherwise) => return .conditional condition taken otherwise
  | none => return taken

/-- An expression that is no tuple and binds no name. -/
def expression : Parser Term := do
  if ← isKeywordNext "lambda" then lambda inner else conditional inner

end TorchArchive.Script.Rule
