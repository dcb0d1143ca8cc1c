import TorchArchive.Character.Normal
import TorchArchive.Script.Grammar.Formatted
import TorchArchive.Script.Grammar.Statement
import TorchArchive.Script.Lexer

/-!
Reading source text as phrases of the whole language.
-/

namespace TorchArchive.Script

/-- Whether a text is an expression when it stands in parentheses. -/
private def isExpression (inner : Grammar) (text : List Char) : Bool :=
  let source := String.ofList ('(' :: (text ++ [')']))
  match lex normalizeName source with
  | none => false
  | some tokens =>
      match (Rule.starExpressions inner).run (.ofList tokens) with
      | some (_, rest) => rest.list.map (·.token) == [.newline]
      | none => false

namespace Grammar

/-- The grammar of phrases that are nested no deeper than a number of levels. -/
def upTo : Nat → Grammar
  | 0 => nothing
  | depth + 1 =>
      let inner := upTo depth
      { expression := Rule.expression inner
        inversion := Rule.inversion inner
        factor := Rule.factor inner
        primary := Rule.primary inner
        pattern := Rule.pattern inner
        statement := Rule.statement inner
        isFormatted := fun literal =>
          match formattedExpressions? literal with
          | some texts => texts.all (isExpression inner)
          | none => false }

/-- The deepest nesting that is followed. -/
def depthLimit : Nat := 20000

/-- The number of levels that phrases in a text of so many characters can have. -/
def depthOf (length : Nat) : Nat := min (3 * length + 8) depthLimit

end Grammar

/-- The phrases of a source text; none if it does not follow the grammar. -/
def readPhrases (source : String) : Option (List Phrase) := do
  let tokens ← lex normalizeName source
  let grammar := Grammar.upTo (Grammar.depthOf source.length)
  let (found, rest) ← (Parser.many grammar.statement).run (.ofList tokens)
  if rest.list.isEmpty then some found.flatten else none

end TorchArchive.Script
