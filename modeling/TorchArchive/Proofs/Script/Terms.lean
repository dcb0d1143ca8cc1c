import TorchArchive.Proofs.Script.Writing
import TorchArchive.Script.Program

/-!
# Terms of expressions

The term that a written expression is read as, and the expression that is cut out of it again.
-/

namespace TorchArchive

open Script

/-! ## The term of an expression -/

def Value.term : Value → Term
  | atom (.int (.negSucc n)) => .unary "-" (.constant (.int (n + 1 : Nat)) false)
  | atom value => .constant value false
  | _ => .formatted

namespace Expr

mutual

/-- The term that the words of an expression are read as. -/
def term : Expr → Term
  | literal value => value.term
  | identifier name => .name name
  | list items => .list (termsOf items)
  | tuple items => .tuple (termsOf items)
  | member target name => .member target.term name
  | item target index => .item target.term index.term
  | call callee arguments keywords =>
      .call callee.term (termsOf arguments) (keywordTerms keywords)
  | blank => .formatted

def termsOf : List Expr → List Term
  | [] => []
  | first :: rest => first.term :: termsOf rest

def keywordTerms : List (String × Expr) → List (Option String × Term)
  | [] => []
  | (name, value) :: rest => (some name, value.term) :: keywordTerms rest

end

theorem expressionOf_literal {value : Value} (writable : value.isWritable = true) :
    expressionOf value.term = .ok (.literal value) := by
  match value, writable with
  | .atom .none, _ => rfl
  | .atom (.bool _), _ => rfl
  | .atom (.str _), _ => rfl
  | .atom (.int (.ofNat n)), _ => rfl
  | .atom (.int (.negSucc n)), _ => rfl

mutual

/-- The term of an expression is the expression. -/
theorem expressionOf_term (e : Expr) (writable : e.isWritable = true) :
    expressionOf e.term = .ok e := by
  match e with
  | .literal value => exact expressionOf_literal writable
  | .identifier name => rfl
  | .list items =>
      rw [term, expressionOf, expressionsOf_termsOf items writable]
      rfl
  | .tuple items =>
      rw [term, expressionOf, expressionsOf_termsOf items writable]
      rfl
  | .member target name =>
      rw [isWritable, Bool.and_eq_true] at writable
      rw [term, expressionOf, expressionOf_term target writable.1]
      rfl
  | .item target index =>
      rw [isWritable, Bool.and_eq_true] at writable
      rw [term, expressionOf, expressionOf_term target writable.1,
        expressionOf_term index writable.2]
      rfl
  | .call callee arguments keywords =>
      rw [isWritable, Bool.and_eq_true, Bool.and_eq_true] at writable
      rw [term, expressionOf, keywordsOf_keywordTerms keywords writable.2,
        expressionOf_term callee writable.1.1, expressionsOf_termsOf arguments writable.1.2]
      rfl
  | .blank => cases writable

theorem expressionsOf_termsOf (items : List Expr) (writable : areWritable items = true) :
    expressionsOf (termsOf items) = .ok items := by
  match items with
  | [] => rfl
  | first :: rest =>
      rw [areWritable, Bool.and_eq_true] at writable
      rw [termsOf, expressionsOf, expressionOf_term first writable.1,
        expressionsOf_termsOf rest writable.2]
      rfl

theorem keywordsOf_keywordTerms (keywords : List (String × Expr))
    (writable : keywordsAreWritable keywords = true) :
    keywordsOf (keywordTerms keywords) = .ok keywords := by
  match keywords with
  | [] => rfl
  | (name, value) :: rest =>
      rw [keywordsAreWritable, Bool.and_eq_true, Bool.and_eq_true] at writable
      rw [keywordTerms, keywordsOf, expressionOf_term value writable.1.2,
        keywordsOf_keywordTerms rest writable.2]
      rfl

end

end Expr

end TorchArchive
