import TorchArchive.Atom

/-!
Terms and phrases: the whole language that archive code is a part of. Source
text is read into them before the part is cut out that can be run.
-/

namespace TorchArchive.Script

/-- The forms of containers that are filled from a loop. -/
inductive Gathering where
  | list
  | set
  | generator
  deriving DecidableEq

mutual

/-- An expression of the whole language. -/
inductive Term where
  /-- A constant; marked if its text is. -/
  | constant (value : Atom) (marked : Bool)
  | name (id : String)
  | member (target : Term) (name : String)
  | item (target index : Term)
  | slice (lower upper step : Option Term)
  /-- A call; a keyword argument without a name is unpacked. -/
  | call (callee : Term) (arguments : List Term)
      (keywords : List (Option String × Term))
  | starred (value : Term)
  | list (items : List Term)
  | tuple (items : List Term)
  | set (items : List Term)
  /-- A dictionary; an entry without a key is unpacked. -/
  | dict (entries : List (Option Term × Term))
  | unary (symbol : String) (operand : Term)
  | binary (symbol : String) (left right : Term)
  | boolean (word : String) (operands : List Term)
  | compare (first : Term) (others : List (String × Term))
  | conditional (condition taken otherwise : Term)
  | function (parameters : List LambdaParameter) (body : Term)
  | named (target value : Term)
  | awaits (value : Term)
  | yields (value : Option Term)
  | yieldsFrom (value : Term)
  | gather (form : Gathering) (element : Term) (clauses : List LoopClause)
  | gatherDict (key value : Term) (clauses : List LoopClause)
  /-- A text with expressions in it. -/
  | formatted

/-- A parameter of a function without a name, spelled with what stands in front of
it. -/
inductive LambdaParameter where
  | make (spelling : String) (default : Option Term)

/-- A loop over a sequence, under conditions. -/
inductive LoopClause where
  | make (awaited : Bool) (target sequence : Term) (conditions : List Term)

end

namespace Term

instance : Inhabited Term := ⟨formatted⟩

/-- The name of the form of a term. -/
def form : Term → String
  | constant _ _ => "Constant"
  | name _ => "Name"
  | member _ _ => "Attribute"
  | item _ _ => "Subscript"
  | slice _ _ _ => "Slice"
  | call _ _ _ => "Call"
  | starred _ => "Starred"
  | list _ => "List"
  | tuple _ => "Tuple"
  | set _ => "Set"
  | dict _ => "Dict"
  | unary _ _ => "UnaryOp"
  | binary _ _ _ => "BinOp"
  | boolean _ _ => "BoolOp"
  | compare _ _ => "Compare"
  | conditional _ _ _ => "IfExp"
  | function _ _ => "Lambda"
  | named _ _ => "NamedExpr"
  | awaits _ => "Await"
  | yields _ => "Yield"
  | yieldsFrom _ => "YieldFrom"
  | gather .list _ _ => "ListComp"
  | gather .set _ _ => "SetComp"
  | gather .generator _ _ => "GeneratorExp"
  | gatherDict _ _ _ => "DictComp"
  | formatted => "JoinedStr"

/-- Whether a term can be bound by itself: a name, a member or an item. -/
def isSingleTarget : Term → Bool
  | name _ | member _ _ | item _ _ => true
  | _ => false

mutual

/-- Whether values can be bound to a term: to a single target, or to the parts of
a list or a tuple, of which one may be starred. -/
def isTarget : Term → Bool
  | name _ | member _ _ | item _ _ => true
  | list items | tuple items => areTargets items
  | starred (.starred _) => false
  | starred target => isTarget target
  | _ => false

def areTargets : List Term → Bool
  | [] => true
  | first :: rest => isTarget first && areTargets rest

end

mutual

/-- Whether a term can be deleted: a single target, or the parts of a list or a
tuple. -/
def isDeletable : Term → Bool
  | name _ | member _ _ | item _ _ => true
  | list items | tuple items => areDeletable items
  | _ => false

private def areDeletable : List Term → Bool
  | [] => true
  | first :: rest => isDeletable first && areDeletable rest

end

end Term

/-- A statement of the whole language. Those without a use here are known by the
name of their form and the line that they begin in. -/
inductive Phrase where
  | pass
  | returns (value : Option Term)
  | functionDef (name : String) (parameters : List String) (body : List Phrase)
  | classDef (name : String) (bases : List Term) (body : List Phrase)
  | annotated (target : Term) (value : Option Term)
  | assign (targets : List Term) (value : Term)
  | branch (condition : Term) (taken otherwise : List Phrase)
  | expression (term : Term) (line : Nat)
  | imports (packages : List (String × Option String))
  | other (form : String) (line : Nat)

instance : Inhabited Phrase := ⟨.pass⟩

end TorchArchive.Script
