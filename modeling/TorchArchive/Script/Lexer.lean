import TorchArchive.Script.Numeral
import TorchArchive.Script.Token

/-!
The lexer: source text to tokens. Lines are grouped by their indentation, except
inside of brackets, where the ends of lines do not count.
-/

namespace TorchArchive.Script

/-! ## Lines -/

/-- The text with every end of line spelled in one way and one at its end. -/
def unifyLines (input : List Char) : List Char :=
  let unified := unify input
  if unified.getLast? == some '\n' then unified else unified ++ ['\n']
where
  unify : List Char → List Char
    | '\r' :: '\n' :: rest => '\n' :: unify rest
    | '\r' :: rest => '\n' :: unify rest
    | c :: rest => c :: unify rest
    | [] => []

/-- The indentation of a line, counted with wide and with narrow tabs, and the
rest of the text behind it. -/
structure Indentation where
  wide : Nat
  narrow : Nat
  line : Nat
  rest : List Char

/-- Measures the indentation at the beginning of a line. A line that is continued
has the indentation in front of its first backslash. -/
def measure (wide narrow continued line : Nat) :
    List Char → Option Indentation
  | ' ' :: rest => measure (wide + 1) (narrow + 1) continued line rest
  | '\t' :: rest => measure ((wide / 8 + 1) * 8) (narrow + 1) continued line rest
  | '\x0c' :: rest => measure 0 0 continued line rest
  | ['\\', '\n'] => none
  | '\\' :: '\n' :: rest =>
      measure wide narrow (if continued = 0 then wide else continued) (line + 1) rest
  | '\\' :: _ => none
  | rest =>
      if continued = 0 then some ⟨wide, narrow, line, rest⟩
      else some ⟨continued, continued, line, rest⟩

/-! ## Names and literals -/

/-- Whether a text is a name. -/
def isName : List Char → Bool
  | [] => false
  | c :: rest => (c == '_' || isIdentifierStart c) && rest.all isIdentifierContinue

/-- What the letters in front of a quote say about a literal; none if they do
not stand in front of one. -/
def literalForm? (letters : List Char) : Option TextLiteral :=
  let add (form : TextLiteral) (c : Char) : Option TextLiteral :=
    match c.toLower with
    | 'b' =>
        if form.bytes || form.marked || form.formatted then none
        else some { form with bytes := true }
    | 'u' =>
        if form.marked || form.bytes || form.raw || form.formatted then none
        else some { form with marked := true }
    | 'r' =>
        if form.raw || form.marked then none else some { form with raw := true }
    | 'f' =>
        if form.formatted || form.bytes || form.marked then none
        else some { form with formatted := true }
    | _ => none
  letters.foldlM add ⟨false, false, false, false, []⟩

/-- Reads up to a closing quote in the same line. -/
def shortBody (quote : Char) : List Char → Option (List Char × List Char)
  | '\\' :: c :: rest =>
      (shortBody quote rest).map fun (body, rest) => ('\\' :: c :: body, rest)
  | c :: rest =>
      if c = quote then some ([], rest)
      else if c = '\n' then none
      else (shortBody quote rest).map fun (body, rest) => (c :: body, rest)
  | [] => none

/-- Reads up to three closing quotes in a row. -/
def longBody (quote : Char) : List Char → Option (List Char × List Char)
  | '\\' :: c :: rest =>
      (longBody quote rest).map fun (body, rest) => ('\\' :: c :: body, rest)
  | c :: rest =>
      match rest with
      | d :: e :: behind =>
          if c = quote ∧ d = quote ∧ e = quote then some ([], behind)
          else (longBody quote rest).map fun (body, rest) => (c :: body, rest)
      | _ => none
  | [] => none

/-- Reads a literal from its opening quote on. -/
def readBody (quote : Char) (input : List Char) :
    Option (List Char × List Char) :=
  match input with
  | a :: b :: c :: rest =>
      if a = quote ∧ b = quote ∧ c = quote then longBody quote rest
      else shortBody quote (b :: c :: rest)
  | _ :: rest => shortBody quote rest
  | [] => none

def countLines (text : List Char) : Nat := text.count '\n'

/-! ## The lexer -/

/-- The state between two tokens. Open indentations are kept from the innermost
outwards, as are open brackets. -/
structure LexerState where
  rest : List Char
  line : Nat
  /-- Whether the next token is the first of its line. -/
  fresh : Bool
  indentations : List (Nat × Nat)
  brackets : List Char
  /-- The tokens so far, the last one first. -/
  tokens : List Lexeme

namespace LexerState

/-- The greatest number of brackets that are open at a time. -/
def bracketLimit : Nat := 200

/-- The greatest number of indentations that are open at a time. -/
def indentationLimit : Nat := 99

def emit (state : LexerState) (token : Token) : LexerState :=
  { state with tokens := ⟨token, state.line⟩ :: state.tokens }

/-- Closes indentations down to a width; none unless one of that width is open. -/
def dedentTo (wide narrow : Nat) (state : LexerState) :
    List (Nat × Nat) → Option LexerState
  | [] =>
      if wide = 0 ∧ narrow = 0 then some { state with indentations := [] } else none
  | (w, n) :: outer =>
      if wide < w then dedentTo wide narrow (state.emit .dedent) outer
      else if wide = w ∧ narrow = n then
        some { state with indentations := (w, n) :: outer }
      else none

/-- Takes the indentation of a line into account. -/
def indentTo (wide narrow : Nat) (state : LexerState) : Option LexerState :=
  let (w, n) := state.indentations.head?.getD (0, 0)
  if wide = w then if narrow = n then some state else none
  else if w < wide then
    if n < narrow ∧ state.indentations.length < indentationLimit then
      some { state.emit .indent with
        indentations := (wide, narrow) :: state.indentations }
    else none
  else dedentTo wide narrow state state.indentations

def skipComment (input : List Char) : List Char :=
  input.dropWhile (· != '\n')

/-- Begins a line: passes over one without tokens, and takes the indentation of
any other into account. -/
def beginLine (state : LexerState) : Option LexerState := do
  let found ← measure 0 0 0 state.line state.rest
  let state := { state with line := found.line }
  match found.rest with
  | '\n' :: rest => some { state with line := state.line + 1, rest }
  | '#' :: rest => some { state with line := state.line + 1, rest := (skipComment rest).drop 1 }
  | rest =>
      let state := { state with rest, fresh := false }
      if state.brackets.isEmpty then indentTo found.wide found.narrow state
      else some state

def closes (opening closing : Char) : Bool :=
  (opening == '(' && closing == ')') || (opening == '[' && closing == ']') ||
    (opening == '\x7b' && closing == '\x7d')

/-- Keeps account of the brackets that are open. -/
def bracket (state : LexerState) (spelling : String) : Option LexerState :=
  match spelling.toList with
  | [c] =>
      if c == '(' || c == '[' || c == '\x7b' then
        if state.brackets.length < bracketLimit then
          some { state with brackets := c :: state.brackets }
        else none
      else if c == ')' || c == ']' || c == '\x7d' then
        match state.brackets with
        | opening :: outer =>
            if closes opening c then some { state with brackets := outer } else none
        | [] => none
      else some state
  | _ => some state

/-- Reads a literal whose form is known. -/
def literal (state : LexerState) (form : TextLiteral) (quote : Char)
    (input : List Char) : Option LexerState := do
  let (body, rest) ← readBody quote input
  let state := state.emit (.text { form with body })
  some { state with rest, line := state.line + countLines body }

/-- Reads a name, a keyword or a literal with letters in front. -/
def word (state : LexerState) (normalize : List Char → List Char)
    (input : List Char) : Option LexerState :=
  let letters := input.takeWhile isNameChar
  let rest := input.dropWhile isNameChar
  match rest, literalForm? letters with
  | '"' :: _, some form => literal state form '"' rest
  | '\'' :: _, some form => literal state form '\'' rest
  | _, _ =>
      if isName letters then
        let spelling := String.ofList letters
        if keywords.contains spelling then
          some { state.emit (.keyword spelling) with rest }
        else
          some { state.emit (.name (String.ofList (normalize letters))) with rest }
      else none

def symbol (state : LexerState) (input : List Char) : Option LexerState := do
  let spelling ← symbols.find? fun spelling => spelling.toList.isPrefixOf input
  let state ← state.bracket spelling
  some { state.emit (.symbol spelling) with rest := input.drop spelling.length }

def numeral (state : LexerState) (input : List Char) : Option LexerState := do
  let (value, rest) ← readNumeral input
  some { state.emit (.number value) with rest }

def isDigit (c : Char) : Bool := '0' ≤ c && c ≤ '9'

/-- Reads one token or passes over blanks. -/
def next (normalize : List Char → List Char) (state : LexerState) :
    Option LexerState :=
  match state.rest with
  | [] => some state
  | '\n' :: rest =>
      let ended := if state.brackets.isEmpty then state.emit .newline else state
      some { ended with rest, line := state.line + 1, fresh := true }
  | ['\\', '\n'] => none
  | '\\' :: '\n' :: rest => some { state with rest, line := state.line + 1 }
  | c :: rest =>
      if c == ' ' || c == '\t' || c == '\x0c' then some { state with rest }
      else if c == '#' then some { state with rest := skipComment rest }
      else if c == '"' || c == '\'' then
        literal state ⟨false, false, false, false, []⟩ c state.rest
      else if isDigit c || (c == '.' && rest.head?.any isDigit) then
        numeral state state.rest
      else if isNameChar c then word state normalize state.rest
      else symbol state state.rest

/-- One step of the lexer. -/
def step (normalize : List Char → List Char) (state : LexerState) :
    Option LexerState :=
  if state.fresh then state.beginLine else state.next normalize

/-- Steps until the text is used up. -/
def run (normalize : List Char → List Char) :
    Nat → LexerState → Option LexerState
  | 0, _ => none
  | fuel + 1, state =>
      if state.rest.isEmpty then some state
      else do run normalize fuel (← step normalize state)

end LexerState

/-- The tokens of a source text, whose names are brought into a normal form; none
if the text is not made of tokens. -/
def lex (normalize : List Char → List Char) (source : String) :
    Option (List Lexeme) := do
  let input := unifyLines source.toList
  let start : LexerState := ⟨input, 1, true, [], [], []⟩
  let final ← start.run normalize (2 * input.length + 1)
  if !final.brackets.isEmpty || !final.fresh then none
  else
    let closing := final.indentations.map fun _ => (⟨.dedent, final.line⟩ : Lexeme)
    some (final.tokens.reverse ++ closing)

end TorchArchive.Script
