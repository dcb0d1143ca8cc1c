import TorchArchive.Fault
import TorchArchive.Script.Reader
import TorchArchive.Script.Spelling
import TorchArchive.Script.Syntax

/-!
Programs of source text: the part of the language that can be run is cut out of
its phrases, and the first phrase outside of that part is a fault.
-/

namespace TorchArchive.Script

open TorchArchive

/-- The opposite of a constant that is a number; a truth value counts as one. -/
def negated? : Atom → Option Atom
  | .bool b => some (.int (if b then -1 else 0))
  | .int n => some (.int (-n))
  | .float x => some (.float x.neg)
  | _ => none

mutual

/-- The expression that a term is. -/
def expressionOf : Term → Except Fault Expr
  | .constant value _ => .ok (.literal (.atom value))
  | .name name => .ok (.identifier name)
  | .list items => (expressionsOf items).map .list
  | .tuple items => (expressionsOf items).map .tuple
  | .member target name => (expressionOf target).map (.member · name)
  | .item target index => do
      let target ← expressionOf target
      return .item target (← expressionOf index)
  | .call callee arguments keywords => do
      let keywords ← keywordsOf keywords
      let callee ← expressionOf callee
      return .call callee (← expressionsOf arguments) keywords
  | .unary sign (.constant value _) =>
      match sign, negated? value with
      | "-", some negated => .ok (.literal (.atom negated))
      | "+", some _ => .ok (.literal (.atom value))
      | _, _ => .error (.expressionForm "UnaryOp")
  | term => .error (.expressionForm term.form)

def expressionsOf : List Term → Except Fault (List Expr)
  | [] => .ok []
  | first :: rest => do
      let first ← expressionOf first
      return first :: (← expressionsOf rest)

def keywordsOf :
    List (Option String × Term) → Except Fault (List (String × Expr))
  | [] => .ok []
  | (none, _) :: _ => .error .keywordUnpacking
  | (some name, value) :: rest => do
      let value ← expressionOf value
      return (name, value) :: (← keywordsOf rest)

end

/-- The statement of an expression that stands alone: a call, or a text that is
passed over. -/
def standalone (term : Term) (line : Nat) : Except Fault Stmt :=
  match term with
  | .call _ _ _ => (expressionOf term).map .call
  | .constant (.str _) _ => .ok .pass
  | _ => .error (.statementForm "Expr" line)

mutual

/-- The statement that a phrase is. -/
def statementOf : Phrase → Except Fault Stmt
  | .pass => .ok .pass
  | .returns none => .ok (.returns (.literal .none))
  | .returns (some value) => (expressionOf value).map .returns
  | .functionDef name parameters body =>
      (statementsOf body).map (.functionDef name parameters)
  | .classDef name bases body =>
      (statementsOf body).map (.classDef name (bases.map Term.spelling))
  | .annotated (.name name) none => .ok (.declare name)
  | .annotated _ none => .error .variableDeclaration
  | .annotated target (some value) => assignmentOf target value
  | .assign [target] value => assignmentOf target value
  | .assign _ _ => .error .chainedAssignment
  | .branch condition taken otherwise => do
      let condition ← expressionOf condition
      let taken ← statementsOf taken
      return .branch condition taken (← statementsOf otherwise)
  | .expression term line => standalone term line
  | .imports packages => .ok (.imports packages)
  | .other form line => .error (.statementForm form line)
where
  assignmentOf (target value : Term) : Except Fault Stmt := do
    let target ← expressionOf target
    return .assign target (← expressionOf value)

/-- The statements that phrases are. -/
def statementsOf : List Phrase → Except Fault (List Stmt)
  | [] => .ok []
  | first :: rest => do
      let first ← statementOf first
      return first :: (← statementsOf rest)

end

end TorchArchive.Script

namespace TorchArchive

/-- The program of a source file. -/
def Program.read (source file : String) : Except Fault Program :=
  if source.toList.contains '\x00' then .error (.value "null character in source")
  else
    match Script.readPhrases source with
    | none => .error (.unparsable file "invalid syntax")
    | some phrases => do
        return ⟨← Script.statementsOf phrases, file⟩

end TorchArchive
