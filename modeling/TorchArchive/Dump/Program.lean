import TorchArchive.Dump.Value
import TorchArchive.Script.Syntax

/-!
Dumps of programs: each form as a list of its name and its parts. Forms are read
back from their dumps; what is no dump of a form is read as the blank one.
-/

namespace TorchArchive.Dump

open TorchArchive

private def form (name : String) (parts : List Datum) : Datum :=
  .list (.str name :: parts)

mutual

/-- The dump of an expression. -/
def expression (heap : Heap) : Expr → Datum
  | .literal content => form "Literal" [valueAlone heap content]
  | .identifier name => form "Identifier" [.str name]
  | .list items => form "ListExpr" [.list (expressions heap items)]
  | .tuple items => form "TupleExpr" [.list (expressions heap items)]
  | .member target name => form "AttributeExpr" [expression heap target, .str name]
  | .item target index =>
      form "SubscriptExpr" [expression heap target, expression heap index]
  | .call callee arguments keywords =>
      form "CallExpr"
        [expression heap callee, .list (expressions heap arguments),
          .list (keywordArguments heap keywords)]
  | .blank => form "Expression" []

private def expressions (heap : Heap) : List Expr → List Datum
  | [] => []
  | first :: rest => expression heap first :: expressions heap rest

private def keywordArguments (heap : Heap) : List (String × Expr) → List Datum
  | [] => []
  | (name, content) :: rest =>
      .list [.str name, expression heap content] :: keywordArguments heap rest

end

mutual

/-- The dump of a statement. -/
def statement (heap : Heap) : Stmt → Datum
  | .pass => form "Pass" []
  | .returns result => form "Return" [expression heap result]
  | .functionDef name parameters body =>
      form "FunctionDef"
        [.str name, strings parameters, .list (statements heap body)]
  | .classDef name bases body =>
      form "ClassDef" [.str name, strings bases, .list (statements heap body)]
  | .declare name => form "VarDecl" [.str name]
  | .assign target content =>
      form "Assign" [expression heap target, expression heap content]
  | .branch condition taken otherwise =>
      form "If"
        [expression heap condition, .list (statements heap taken),
          .list (statements heap otherwise)]
  | .call call => form "CallStatement" [expression heap call]
  | .imports packages =>
      form "Import"
        [.list (packages.map fun package =>
          .list [.str package.1, optional .str package.2])]
  | .blank => form "Statement" []

private def statements (heap : Heap) : List Stmt → List Datum
  | [] => []
  | first :: rest => statement heap first :: statements heap rest

end

/-- The dump of the statements of a program. -/
def body (heap : Heap) (content : List Stmt) : Datum := .list (statements heap content)

/-! ## Reading -/

private def parts (content : Datum) : List Datum := content.items?.getD []

private def text (content : Datum) : String := content.str?.getD ""

section Reading

variable {m : Type → Type} [Monad m] (literal : Datum → m Value)

/-- The expression of a dump, whose literals are read as told. -/
def readExpression : Nat → Datum → m Expr
  | 0, _ => pure .blank
  | fuel + 1, content => do
      let again := readExpression fuel
      match parts content with
      | [.atom (.str "Literal"), content] => return .literal (← literal content)
      | [.atom (.str "Identifier"), name] => return .identifier (text name)
      | [.atom (.str "ListExpr"), items] => return .list (← (parts items).mapM again)
      | [.atom (.str "TupleExpr"), items] => return .tuple (← (parts items).mapM again)
      | [.atom (.str "AttributeExpr"), target, name] =>
          return .member (← again target) (text name)
      | [.atom (.str "SubscriptExpr"), target, index] =>
          return .item (← again target) (← again index)
      | [.atom (.str "CallExpr"), callee, arguments, keywords] =>
          let callee ← again callee
          let arguments ← (parts arguments).mapM again
          let keywords ← (parts keywords).mapM fun keyword => do
            match parts keyword with
            | [name, content] => return (text name, ← again content)
            | _ => return ("", .blank)
          return .call callee arguments keywords
      | _ => return .blank

/-- The statement of a dump. -/
def readStatement : Nat → Datum → m Stmt
  | 0, _ => pure .blank
  | fuel + 1, content => do
      let term := readExpression literal fuel
      let block (content : Datum) := (parts content).mapM (readStatement fuel)
      match parts content with
      | [.atom (.str "Pass")] => return .pass
      | [.atom (.str "Return"), result] => return .returns (← term result)
      | [.atom (.str "FunctionDef"), name, parameters, body] =>
          return .functionDef (text name) ((parts parameters).map text) (← block body)
      | [.atom (.str "ClassDef"), name, bases, body] =>
          return .classDef (text name) ((parts bases).map text) (← block body)
      | [.atom (.str "VarDecl"), name] => return .declare (text name)
      | [.atom (.str "Assign"), target, content] =>
          return .assign (← term target) (← term content)
      | [.atom (.str "If"), condition, taken, otherwise] =>
          return .branch (← term condition) (← block taken) (← block otherwise)
      | [.atom (.str "CallStatement"), call] => return .call (← term call)
      | [.atom (.str "Import"), packages] =>
          return .imports ((parts packages).map fun package =>
            match parts package with
            | [name, otherName] => (text name, otherName.str?)
            | _ => ("", none))
      | _ => return .blank

/-- The statements of a dump. -/
def readBody (content : Datum) : m (List Stmt) :=
  (parts content).mapM (readStatement literal content.size)

end Reading

end TorchArchive.Dump
