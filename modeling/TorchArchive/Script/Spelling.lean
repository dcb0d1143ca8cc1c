import TorchArchive.Script.Term

/-!
The spelling of terms: source text that reads as a given term, with parentheses
where the precedence of its parts asks for them.
-/

namespace TorchArchive.Script

/-- How tightly terms bind, from loosest to tightest. -/
inductive Precedence where
  | naming
  | yielding
  | test
  | disjunction
  | conjunction
  | negation
  | comparison
  | bitOr
  | bitXor
  | bitAnd
  | shift
  | sum
  | product
  | factor
  | power
  | awaiting
  | atom

namespace Precedence

def rank : Precedence → Nat
  | naming => 0
  | yielding => 1
  | test => 2
  | disjunction => 3
  | conjunction => 4
  | negation => 5
  | comparison => 6
  | bitOr => 7
  | bitXor => 8
  | bitAnd => 9
  | shift => 10
  | sum => 11
  | product => 12
  | factor => 13
  | power => 14
  | awaiting => 15
  | atom => 16

/-- The precedence of an operator between two terms. -/
def ofOperator : String → Precedence
  | "|" => bitOr
  | "^" => bitXor
  | "&" => bitAnd
  | "<<" | ">>" => shift
  | "+" | "-" => sum
  | "**" => power
  | _ => product

end Precedence

namespace Term

/-- Puts parentheses around a text whose own rank is below the one asked for. -/
private def enclose (own asked : Nat) (text : String) : String :=
  if own < asked then "(" ++ text ++ ")" else text

/-- A decimal beyond all doubles, which stands for infinity. -/
private def hugeDecimal : String := "1e309"

private def floatSpelling (text : String) : String :=
  (text.replace "inf" hugeDecimal).replace "nan" ("(" ++ hugeDecimal ++ "-" ++ hugeDecimal ++ ")")

private def constantSpelling : Atom → String
  | .ellipsis => "..."
  | .float x => floatSpelling x.text
  | .imaginary x => floatSpelling (Atom.imaginary x).written
  | atom => atom.written

private def isInteger : Term → Bool
  | constant (.int _) _ | constant (.bool _) _ => true
  | _ => false

private def tupleSpelling : List String → String
  | [single] => single ++ ","
  | texts => ", ".intercalate texts

mutual

/-- The spelling of a term where one of at least the given rank is asked for. -/
def spell (asked : Nat) : Term → String
  | constant value marked =>
      (if marked then "u" else "") ++ constantSpelling value
  | name id => id
  | member target field =>
      spell Precedence.atom.rank target ++
        (if isInteger target then " ." else ".") ++ field
  | item target (.tuple (first :: rest)) =>
      spell Precedence.atom.rank target ++ "[" ++
        tupleSpelling (spellAll Precedence.test.rank (first :: rest)) ++ "]"
  | item target index =>
      spell Precedence.atom.rank target ++ "[" ++
        spell Precedence.test.rank index ++ "]"
  | slice lower upper step =>
      spellOption "" lower ++ ":" ++ spellOption "" upper ++ spellOption ":" step
  | call callee arguments keywords =>
      spell Precedence.atom.rank callee ++ "(" ++
        ", ".intercalate
          (spellAll Precedence.test.rank arguments ++ spellKeywords keywords) ++ ")"
  | starred value => "*" ++ spell Precedence.bitOr.rank value
  | list items =>
      "[" ++ ", ".intercalate (spellAll Precedence.test.rank items) ++ "]"
  | tuple items =>
      "(" ++ tupleSpelling (spellAll Precedence.test.rank items) ++ ")"
  | set [] => "\x7b*()\x7d"
  | set items =>
      "\x7b" ++ ", ".intercalate (spellAll Precedence.test.rank items) ++ "\x7d"
  | dict entries => "\x7b" ++ ", ".intercalate (spellEntries entries) ++ "\x7d"
  | unary "not" operand =>
      enclose Precedence.negation.rank asked
        ("not " ++ spell Precedence.negation.rank operand)
  | unary sign operand =>
      enclose Precedence.factor.rank asked
        (sign ++ spell Precedence.factor.rank operand)
  | binary sign left right =>
      let own := (Precedence.ofOperator sign).rank
      let leftAsked := if sign == "**" then own + 1 else own
      let rightAsked := if sign == "**" then own else own + 1
      enclose own asked
        (spell leftAsked left ++ " " ++ sign ++ " " ++ spell rightAsked right)
  | boolean word operands =>
      let own :=
        if word == "or" then Precedence.disjunction.rank
        else Precedence.conjunction.rank
      enclose own asked
        ((" " ++ word ++ " ").intercalate (spellRising (own + 1) operands))
  | compare first others =>
      let own := Precedence.comparison.rank
      enclose own asked (spell (own + 1) first ++ spellComparisons (own + 1) others)
  | conditional condition taken otherwise =>
      let own := Precedence.test.rank
      enclose own asked
        (spell (own + 1) taken ++ " if " ++ spell (own + 1) condition ++
          " else " ++ spell own otherwise)
  | function parameters body =>
      let texts := spellParameters parameters
      enclose Precedence.test.rank asked
        ("lambda" ++ (if texts.isEmpty then "" else " ") ++ ", ".intercalate texts ++
          ": " ++ spell Precedence.test.rank body)
  | named target value =>
      enclose Precedence.naming.rank asked
        (spell Precedence.atom.rank target ++ " := " ++
          spell Precedence.atom.rank value)
  | awaits value =>
      enclose Precedence.awaiting.rank asked
        ("await " ++ spell Precedence.atom.rank value)
  | yields none => enclose Precedence.yielding.rank asked "yield"
  | yields (some value) =>
      enclose Precedence.yielding.rank asked
        ("yield " ++ spell Precedence.atom.rank value)
  | yieldsFrom value =>
      enclose Precedence.yielding.rank asked
        ("yield from " ++ spell Precedence.atom.rank value)
  | gather .list element clauses =>
      "[" ++ spell Precedence.test.rank element ++ spellClauses clauses ++ "]"
  | gather .set element clauses =>
      "\x7b" ++ spell Precedence.test.rank element ++ spellClauses clauses ++ "\x7d"
  | gather .generator element clauses =>
      "(" ++ spell Precedence.test.rank element ++ spellClauses clauses ++ ")"
  | gatherDict key value clauses =>
      "\x7b" ++ spell Precedence.test.rank key ++ ": " ++
        spell Precedence.test.rank value ++ spellClauses clauses ++ "\x7d"
  | formatted => "f''"

private def spellOption (before : String) : Option Term → String
  | some term => before ++ spell Precedence.test.rank term
  | none => ""

private def spellAll (asked : Nat) : List Term → List String
  | [] => []
  | first :: rest => spell asked first :: spellAll asked rest

/-- Operands of which each one has to bind more tightly than the one before. -/
private def spellRising (asked : Nat) : List Term → List String
  | [] => []
  | first :: rest => spell asked first :: spellRising (asked + 1) rest

private def spellKeywords : List (Option String × Term) → List String
  | [] => []
  | (keyword, value) :: rest =>
      ((match keyword with
        | some keyword => keyword ++ "="
        | none => "**") ++ spell Precedence.test.rank value) :: spellKeywords rest

private def spellEntries : List (Option Term × Term) → List String
  | [] => []
  | (some key, value) :: rest =>
      (spell Precedence.test.rank key ++ ": " ++ spell Precedence.test.rank value) ::
        spellEntries rest
  | (none, value) :: rest =>
      ("**" ++ spell Precedence.bitOr.rank value) :: spellEntries rest

private def spellComparisons (asked : Nat) : List (String × Term) → String
  | [] => ""
  | (sign, term) :: rest =>
      " " ++ sign ++ " " ++ spell asked term ++ spellComparisons asked rest

private def spellParameters : List LambdaParameter → List String
  | [] => []
  | .make spelling default :: rest =>
      (spelling ++ spellOption "=" default) :: spellParameters rest

private def spellClauses : List LoopClause → String
  | [] => ""
  | .make awaited target sequence conditions :: rest =>
      (if awaited then " async for " else " for ") ++
        spell Precedence.naming.rank target ++ " in " ++
        spell (Precedence.test.rank + 1) sequence ++
        spellConditions conditions ++ spellClauses rest

private def spellConditions : List Term → String
  | [] => ""
  | first :: rest =>
      " if " ++ spell (Precedence.test.rank + 1) first ++ spellConditions rest

end

/-- The spelling of a term that stands for itself. -/
def spelling (term : Term) : String := term.spell Precedence.test.rank

end Term

end TorchArchive.Script
