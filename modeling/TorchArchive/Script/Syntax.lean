import TorchArchive.Value

/-!
The syntax of archive code: enough to declare classes and functions, bind names
and call them.
-/

namespace TorchArchive

/-- An expression. -/
inductive Expr where
  | literal (value : Value)
  | identifier (name : String)
  | list (items : List Expr)
  | tuple (items : List Expr)
  | member (target : Expr) (name : String)
  | item (target index : Expr)
  | call (callee : Expr) (arguments : List Expr) (keywords : List (String × Expr))
  /-- An expression without a form. -/
  | blank

namespace Expr

instance : Inhabited Expr := ⟨blank⟩

/-- The name of the form of an expression. -/
def form : Expr → String
  | literal _ => "Literal"
  | identifier _ => "Identifier"
  | list _ => "ListExpr"
  | tuple _ => "TupleExpr"
  | member _ _ => "AttributeExpr"
  | item _ _ => "SubscriptExpr"
  | call _ _ _ => "CallExpr"
  | blank => "Expression"

/-- The dotted name that a chain of members of a name spells. -/
def dottedName? : Expr → Option String
  | identifier name => some name
  | member target name => target.dottedName?.map fun owner => owner ++ "." ++ name
  | _ => none

/-- The name that an expression consists of. -/
def name? : Expr → Option String
  | identifier name => some name
  | _ => none

end Expr

/-- A statement. -/
inductive Stmt where
  | pass
  | returns (result : Expr)
  | functionDef (name : String) (parameters : List String) (body : List Stmt)
  | classDef (name : String) (bases : List String) (body : List Stmt)
  | declare (name : String)
  | assign (target value : Expr)
  | branch (condition : Expr) (taken otherwise : List Stmt)
  | call (call : Expr)
  /-- Imports of packages, each perhaps under another name. -/
  | imports (packages : List (String × Option String))
  /-- A statement without a form. -/
  | blank

namespace Stmt

instance : Inhabited Stmt := ⟨blank⟩

mutual

/-- The number of statements that running a statement may take, with what stands inside
of it. -/
def span : Stmt → Nat
  | classDef _ _ body => spanAll body + 1
  | branch _ taken otherwise => spanAll taken + spanAll otherwise + 1
  | _ => 1

/-- The number of statements that running statements may take. -/
def spanAll : List Stmt → Nat
  | [] => 0
  | first :: rest => span first + spanAll rest

end

theorem spanAll_append (front back : List Stmt) :
    spanAll (front ++ back) = spanAll front + spanAll back := by
  induction front with
  | nil => rw [List.nil_append, spanAll, Nat.zero_add]
  | cons first rest inductionHypothesis =>
      rw [List.cons_append, spanAll, spanAll, inductionHypothesis, Nat.add_assoc]

end Stmt

/-- The statements of one source file. -/
structure Program where
  body : List Stmt
  file : String

end TorchArchive
