import TorchArchive.Heap.Scope
import TorchArchive.Script.Lexer
import TorchArchive.Script.Syntax

/-!
# Writing programs

The source text of a program: every expression inside of another one stands in
parentheses, every statement on a line of its own, and the statements of a block two
blanks further to the right than the line that they belong to.

An expression is written as a row of words, a statement as an outline: lines of words
with further lines below them.  Spelling the words is left to the end, because the text
of a word does not depend on where it stands.
-/

namespace TorchArchive.Script

/-! ## Words -/

/-- The symbols that are written. -/
inductive Mark where
  | opening
  | closing
  | itemOpening
  | itemClosing
  | comma
  | colon
  | equals
  | dot
  | minus
  deriving DecidableEq

def Mark.spelling : Mark → String
  | opening => "("
  | closing => ")"
  | itemOpening => "["
  | itemClosing => "]"
  | comma => ","
  | colon => ":"
  | equals => "="
  | dot => "."
  | minus => "-"

inductive Word where
  | name (id : String)
  | keyword (word : String)
  | number (n : Nat)
  | text (content : String)
  | mark (symbol : Mark)
  deriving DecidableEq

namespace Word

def chars : Word → List Char
  | name id => id.toList
  | keyword word => word.toList
  | number n => decimalDigits n
  | text content => (quotedText content).toList
  | mark symbol => symbol.spelling.toList

/-- The token that a word is read as. -/
def token : Word → Token
  | name id => .name id
  | keyword word => .keyword word
  | number n => .number (.int n)
  | text content =>
      .text ⟨false, false, false, false,
        content.toList.flatMap (quotedChar (enclosingQuote content.toList))⟩
  | mark symbol => .symbol symbol.spelling

/-- Whether a word stands right behind another one, without a blank. -/
def joins : Word → Word → Bool
  | mark .opening, _ | mark .itemOpening, _ => true
  | _, mark .closing | _, mark .itemClosing | _, mark .comma | _, mark .colon => true
  | name _, mark .opening | name _, mark .dot => true
  | mark .closing, mark .opening | mark .closing, mark .itemOpening => true
  | mark .closing, mark .dot => true
  | mark .dot, name _ | mark .minus, number _ => true
  | _, _ => false

/-- The text of a line of words. -/
def line : List Word → List Char
  | [] => []
  | [last] => last.chars
  | first :: next :: rest =>
      first.chars ++ (if first.joins next then [] else [' ']) ++ line (next :: rest)

/-- Puts a word between rows of words. -/
def separated (separator : Word) (rows : List (List Word)) : List Word :=
  [separator].intercalate rows

def enclosed (words : List Word) : List Word :=
  mark .opening :: (words ++ [mark .closing])

/-- The words of a dotted name. -/
def dotted (name : String) : List Word :=
  separated (mark .dot) ((Heap.nameParts name).map fun part => [Word.name part])

end Word

/-! ## Outlines -/

/-- A line with the lines that belong to it. -/
inductive Outline where
  | entry (line : List Word) (below : List Outline)

namespace Outline

mutual

def chars (level : Nat) : Outline → List Char
  | entry line below =>
      List.replicate (2 * level) ' ' ++ Word.line line ++ '\n' :: charsOfAll (level + 1) below

def charsOfAll (level : Nat) : List Outline → List Char
  | [] => []
  | first :: rest => chars level first ++ charsOfAll level rest

end

/-- The tokens of lines that belong to another one. -/
def block : List Token → List Token
  | [] => []
  | tokens => .indent :: (tokens ++ [.dedent])

mutual

/-- The tokens that an outline is read as. -/
def tokens : Outline → List Token
  | entry line below => line.map Word.token ++ .newline :: block (tokensOfAll below)

def tokensOfAll : List Outline → List Token
  | [] => []
  | first :: rest => tokens first ++ tokensOfAll rest

end

end Outline

end TorchArchive.Script

namespace TorchArchive

open Script (Word Mark Outline)

/-! ## Expressions -/

/-- The words of a value that can be written down. -/
def Value.words : Value → List Word
  | atom .none => [.keyword "None"]
  | atom (.bool true) => [.keyword "True"]
  | atom (.bool false) => [.keyword "False"]
  | atom (.int (.ofNat n)) => [.number n]
  | atom (.int (.negSucc n)) => [.mark .minus, .number (n + 1)]
  | atom (.str content) => [.text content]
  | _ => []

namespace Expr

/-- The words between the parentheses of a tuple; a single item has a comma behind it. -/
def tupleWords : List (List Word) → List Word
  | [single] => single ++ [.mark .comma]
  | rows => Word.separated (.mark .comma) rows

mutual

def words : Expr → List Word
  | literal value => value.words
  | identifier name => [.name name]
  | list items =>
      .mark .itemOpening ::
        (Word.separated (.mark .comma) (rowsOf items) ++ [.mark .itemClosing])
  | tuple items => Word.enclosed (tupleWords (rowsOf items))
  | member target name => Word.enclosed target.words ++ [.mark .dot, .name name]
  | item target index =>
      Word.enclosed target.words ++
        .mark .itemOpening :: (Word.enclosed index.words ++ [.mark .itemClosing])
  | call callee arguments keywords =>
      Word.enclosed callee.words ++
        Word.enclosed
          (Word.separated (.mark .comma) (rowsOf arguments ++ keywordRows keywords))
  | blank => []

/-- The words of expressions inside of another one. -/
def rowsOf : List Expr → List (List Word)
  | [] => []
  | first :: rest => Word.enclosed first.words :: rowsOf rest

def keywordRows : List (String × Expr) → List (List Word)
  | [] => []
  | (name, value) :: rest =>
      (.name name :: .mark .equals :: Word.enclosed value.words) :: keywordRows rest

end

end Expr

/-! ## Statements -/

/-- The words of a package that is imported, perhaps under another name. -/
def importWords : String × Option String → List Word
  | (package, none) => Word.dotted package
  | (package, some other) => Word.dotted package ++ [.keyword "as", .name other]

/-- What stands behind the name of a class. -/
def baseWords : List String → List Word
  | [] => []
  | bases => Word.enclosed (Word.separated (.mark .comma) (bases.map Word.dotted))

namespace Stmt

/-- The second branch of a conditional statement; an empty one is not written. -/
def otherwise : List Outline → List Outline
  | [] => []
  | below => [.entry [.keyword "else", .mark .colon] below]

mutual

def outlines : Stmt → List Outline
  | pass => [.entry [.keyword "pass"] []]
  | returns result => [.entry (.keyword "return" :: result.words) []]
  | functionDef name parameters body =>
      [.entry
        (.keyword "def" :: .name name ::
          (Word.enclosed
            (Word.separated (.mark .comma)
              (parameters.map fun parameter => [Word.name parameter])) ++ [.mark .colon]))
        (outlinesOf body)]
  | classDef name bases body =>
      [.entry (.keyword "class" :: .name name :: (baseWords bases ++ [.mark .colon]))
        (outlinesOf body)]
  | declare name => [.entry [.name name, .mark .colon, .name "Tensor"] []]
  | assign target value => [.entry (target.words ++ .mark .equals :: value.words) []]
  | branch condition taken other =>
      .entry (.keyword "if" :: (condition.words ++ [.mark .colon])) (outlinesOf taken) ::
        otherwise (outlinesOf other)
  | call made => [.entry made.words []]
  | imports packages =>
      [.entry
        (.keyword "import" :: Word.separated (.mark .comma) (packages.map importWords)) []]
  | blank => []

def outlinesOf : List Stmt → List Outline
  | [] => []
  | first :: rest => outlines first ++ outlinesOf rest

end

end Stmt

/-- The source text of a program. -/
def Program.text (program : Program) : String :=
  String.ofList (Outline.charsOfAll 0 (Stmt.outlinesOf program.body))

/-! ## What can be written -/

def isPlainStart (c : Char) : Bool := c == '_' || c.isAlpha

def isPlainChar (c : Char) : Bool := c == '_' || c.isAlphanum

/-- Whether a text is made of letters, digits and underscores, with no digit in front. -/
def isPlainWord : List Char → Bool
  | [] => false
  | c :: rest => isPlainStart c && rest.all isPlainChar

def isPlainName (name : String) : Bool :=
  isPlainWord name.toList && !Script.keywords.contains name

/-- Whether a text is made of plain names with points in between. -/
def isPlainPath (name : String) : Bool := (Heap.nameParts name).all isPlainName

/-- Whether a value can be written down; an integer must not have too many digits. -/
def Value.isWritable : Value → Bool
  | atom .none | atom (.bool _) | atom (.str _) => true
  | atom (.int n) => (decimalDigits n.natAbs).length ≤ integerDigitLimit
  | _ => false

namespace Expr

mutual

def isWritable : Expr → Bool
  | literal value => value.isWritable
  | identifier name => isPlainName name
  | list items | tuple items => areWritable items
  | member target name => isWritable target && isPlainName name
  | item target index => isWritable target && isWritable index
  | call callee arguments keywords =>
      isWritable callee && areWritable arguments && keywordsAreWritable keywords
  | blank => false

def areWritable : List Expr → Bool
  | [] => true
  | first :: rest => isWritable first && areWritable rest

def keywordsAreWritable : List (String × Expr) → Bool
  | [] => true
  | (name, value) :: rest =>
      isPlainName name && isWritable value && keywordsAreWritable rest

end

mutual

/-- Whether a value can be assigned to an expression. -/
def isAssignable : Expr → Bool
  | identifier _ | member _ _ | item _ _ => true
  | tuple items => areAssignable items
  | _ => false

def areAssignable : List Expr → Bool
  | [] => true
  | first :: rest => isAssignable first && areAssignable rest

end

mutual

/-- The greatest number of brackets that are open at a time in the words of an
expression. -/
def brackets : Expr → Nat
  | list items | tuple items => bracketsOf items + 1
  | member target _ => brackets target + 1
  | item target index => max (brackets target + 1) (brackets index + 2)
  | call callee arguments keywords =>
      max (brackets callee + 1) (max (bracketsOf arguments) (bracketsOfKeywords keywords) + 1)
  | _ => 0

/-- The same for expressions inside of another one. -/
def bracketsOf : List Expr → Nat
  | [] => 0
  | first :: rest => max (brackets first + 1) (bracketsOf rest)

def bracketsOfKeywords : List (String × Expr) → Nat
  | [] => 0
  | (_, value) :: rest => max (brackets value + 1) (bracketsOfKeywords rest)

end

end Expr

namespace Stmt

mutual

/-- Whether a statement has a text: blocks and imports are not empty, names are plain,
only calls stand alone, and values are assigned to what can hold them. -/
def isWritable : Stmt → Bool
  | pass => true
  | returns result => result.isWritable
  | functionDef name parameters body =>
      isPlainName name && parameters.all isPlainName && !body.isEmpty && areWritable body
  | classDef name bases body =>
      isPlainName name && bases.all isPlainPath && !body.isEmpty && areWritable body
  | declare name => isPlainName name
  | assign target value => target.isAssignable && target.isWritable && value.isWritable
  | branch condition taken other =>
      condition.isWritable && !taken.isEmpty && areWritable taken && areWritable other
  | call (.call callee arguments keywords) => (Expr.call callee arguments keywords).isWritable
  | imports packages =>
      !packages.isEmpty &&
        packages.all fun (package, other) => isPlainPath package && other.all isPlainName
  | _ => false

def areWritable : List Stmt → Bool
  | [] => true
  | first :: rest => isWritable first && areWritable rest

end

mutual

/-- The greatest number of brackets that are open at a time in the words of a statement. -/
def brackets : Stmt → Nat
  | returns result => result.brackets
  | functionDef _ _ body | classDef _ _ body => max 1 (bracketsOf body)
  | assign target value => max target.brackets value.brackets
  | branch condition taken other =>
      max condition.brackets (max (bracketsOf taken) (bracketsOf other))
  | call made => made.brackets
  | _ => 0

def bracketsOf : List Stmt → Nat
  | [] => 0
  | first :: rest => max (brackets first) (bracketsOf rest)

end

mutual

/-- The number of blocks inside of each other that a statement is made of. -/
def blocks : Stmt → Nat
  | functionDef _ _ body | classDef _ _ body => blocksOf body + 1
  | branch _ taken other => max (blocksOf taken) (blocksOf other) + 1
  | _ => 0

def blocksOf : List Stmt → Nat
  | [] => 0
  | first :: rest => max (blocks first) (blocksOf rest)

end

end Stmt

/-- Whether a program has a text that can be read: it is made of statements that can be
written, and neither its brackets nor its blocks are nested too deeply. -/
structure Program.IsWritable (program : Program) : Prop where
  statements : Stmt.areWritable program.body = true
  brackets : Stmt.bracketsOf program.body ≤ Script.LexerState.bracketLimit
  blocks : Stmt.blocksOf program.body ≤ Script.LexerState.indentationLimit

end TorchArchive
