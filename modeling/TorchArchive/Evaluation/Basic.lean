import TorchArchive.Machine

/-!
Evaluation of archive code. Expressions and statements are evaluated by recursion
on their form; what leaves the code at hand, a call of another function, the load
of a package or the constants, goes through `Calls`.
-/

namespace TorchArchive

/-- What evaluation can ask for beyond the code at hand. -/
structure Calls where
  /-- Runs a function on a receiver, if there is one, and arguments. -/
  apply : Ref .function → Option Value → List Value → Run Value
  /-- Loads a package, from a file that is named or follows from its name. -/
  package : String → Option String → Run (Ref .package)
  /-- The table of constants. -/
  constants : Run (List Value)

namespace Calls

/-- The calls that nest too deeply. -/
def exhausted : Calls :=
  ⟨fun _ _ _ => throw .depth, fun _ _ => throw .depth, throw .depth⟩

instance : Inhabited Calls := ⟨exhausted⟩

end Calls

/-! ## Calls of values -/

/-- Turns a misuse of a builtin into a fault of the code that called it. -/
def guardCall (callee : String) (step : Recorded Value) : Run Value :=
  tryCatch (Run.recorded step) fun fault =>
    match fault with
    | .type detail => throw (.invalidCall callee detail)
    | fault => throw fault

/-- A new instance of a class. -/
def newInstance (ref : Ref .moduleClass) : Run (Ref .module) :=
  Run.allocate fun heap => heap.addModule (.fresh ref)

/-- Calls a value: a function, a class, or a builtin. A class makes an instance,
which its initializer is run on if it has one. -/
def callValue (calls : Calls) (target : Value) (receiver : Option Value)
    (positional : List Value) (keywords : List (String × Value)) : Run Value := do
  match target with
  | .function ref => calls.apply ref receiver positional
  | .moduleClass ref =>
      let instance_ := Value.module (← newInstance ref)
      let heap ← Run.heap
      match (heap.table (heap.moduleClass ref).members).get? "__init__" with
      | some (.function init) =>
          let _ ← calls.apply init (some instance_) positional
          return instance_
      | _ => return instance_
  | .builtin builtin =>
      guardCall builtin.callName (builtin.call positional keywords)
  | .method method => guardCall method.callName (method.call positional keywords)
  | .storageType type =>
      guardCall type.qualifiedName (type.call positional keywords)
  | target => do throw (.notCallable ((← Run.heap).typeName target))

/-- The stand-in for a call of a symbol that is not known. -/
def callStub (name : String) : Run Value := Run.recorded (Builtin.callStub name)

/-! ## Names -/

/-- The names that stand for types where nothing else is bound to them. -/
def typeNames : List String :=
  ["Tensor", "int", "float", "bool", "str", "List", "Optional", "Dict", "Tuple",
    "Any"]

/-- The name of the table of constants. -/
def constantsName : String := "CONSTANTS"

/-- Binds the table of constants, whose members are numbered. -/
def bindConstants (constants : List Value) : Run Value := do
  let ref ← Run.allocate fun heap => heap.addPackage constantsName
  let members := constants.zipIdx.map fun (value, n) =>
    ("c" ++ integerText n, value)
  Run.modifyHeap fun heap =>
    members.foldl
      (fun heap member => heap.bind (heap.package ref).members member.1 member.2) heap
  Run.bind (← Run.root) constantsName (.package ref)
  return .package ref

/-- The value of a name. -/
def nameValue (calls : Calls) (scope : Scope) (name : String) : Run Value := do
  match name with
  | "None" => return .none
  | "True" => return .bool true
  | "False" => return .bool false
  | name =>
      let value ← Run.lookup scope name
      if !value.isMissing then return value
      else if typeNames.contains name then return .atom (.typeRef name)
      else if name = constantsName then bindConstants (← calls.constants)
      else throw (.unknownIdentifier name)

/-- Whether a chain of members begins with a package or with a name that nothing is
bound to; the other chains begin with a value. -/
def beginsWithPackage (heap : Heap) (scope : Scope) (name : String) : Bool :=
  let first := (Heap.nameParts name).headD ""
  if ["None", "True", "False", constantsName].contains first then false
  else
    match heap.lookup scope first with
    | .package _ => true
    | value => value.isMissing

/-- The value that a member is asked of: of a dotted name that does not begin with
a value, the package is loaded if need be. -/
def ownerValue (calls : Calls) (scope : Scope) (name : Option String)
    (evaluated : Run Value) : Run Value := do
  match name with
  | none => evaluated
  | some name =>
      let heap ← Run.heap
      if !beginsWithPackage heap scope name then evaluated
      else
        let value := heap.lookupQualified scope name
        if value.isMissing then .package <$> calls.package name none
        else return value

/-! ## Expressions -/

/-- The text of an expression within a type. -/
def typeText (expr : Expr) : String := expr.dottedName?.getD expr.form

/-- The type that an item of a name spells, if it spells one: the name stands for a
type, and nothing is bound to it. -/
def typeOfItem? (heap : Heap) (scope : Scope) (target index : Expr) :
    Option Value := do
  let name ← target.name?
  if !typeNames.contains name || !(heap.lookup scope name).isMissing then none
  else
    let parts :=
      match index with
      | .tuple items => items
      | index => [index]
    some (.atom (.typeRef
      (name ++ "[" ++ ",".intercalate (parts.map typeText) ++ "]")))

/-- The item of a value. -/
def itemValue (target index : Value) : Run Value := do
  let heap ← Run.heap
  match heap.item? target index with
  | some value => return value
  | none => throw (.subscript (heap.typeName target) (heap.text index))

/-- Adds a keyword argument; a later one of the same name counts. -/
def addKeyword (keywords : List (String × Value)) (name : String)
    (value : Value) : List (String × Value) :=
  ((⟨keywords⟩ : Table String Value).insert name value).entries

/-- Calls the member of a value. Where a dotted name leads nowhere, a stand-in is
called. -/
def callMember (calls : Calls) (name : Option String) (owner : Run Value)
    (member : String) (positional : List Value)
    (keywords : List (String × Value)) : Run Value := do
  let target? ← tryCatch (some <$> owner) fun fault =>
    if fault.kind == .sourceNotFound && name.isSome then return none
    else throw fault
  match target? with
  | none => callStub (name.getD "")
  | some target =>
      match target, (← Run.heap).getMember target member with
      | .module ref, .ok function =>
          callValue calls function (some (.module ref)) positional keywords
      | .module _, .error fault => throw fault
      | _, .ok function => callValue calls function none positional keywords
      | _, .error fault =>
          match name with
          | some name => callStub name
          | none => throw fault

mutual

/-- The value of an expression. -/
def evaluate (calls : Calls) (scope : Scope) : Expr → Run Value
  | .literal value => pure value
  | .list items => do Run.newList (← evaluateAll calls scope items)
  | .tuple items => .tuple <$> evaluateAll calls scope items
  | .identifier name => nameValue calls scope name
  | .member target name => do
      let owner ←
        ownerValue calls scope target.dottedName? (evaluate calls scope target)
      ofExcept ((← Run.heap).getMember owner name)
  | .item target index => do
      match typeOfItem? (← Run.heap) scope target index with
      | some type => return type
      | none =>
          let target ← evaluate calls scope target
          itemValue target (← evaluate calls scope index)
  | .call (.member target name) arguments keywords => do
      let positional ← evaluateAll calls scope arguments
      let keywords ← evaluateKeywords calls scope [] keywords
      callMember calls ((Expr.member target name).dottedName?)
        (ownerValue calls scope target.dottedName? (evaluate calls scope target))
        name positional keywords
  | .call callee arguments keywords => do
      let positional ← evaluateAll calls scope arguments
      let keywords ← evaluateKeywords calls scope [] keywords
      callValue calls (← evaluate calls scope callee) none positional keywords
  | .blank => throw (.unknownExpression (Expr.form .blank))

def evaluateAll (calls : Calls) (scope : Scope) : List Expr → Run (List Value)
  | [] => pure []
  | first :: rest => do
      let value ← evaluate calls scope first
      return value :: (← evaluateAll calls scope rest)

def evaluateKeywords (calls : Calls) (scope : Scope)
    (done : List (String × Value)) :
    List (String × Expr) → Run (List (String × Value))
  | [] => pure done
  | (name, first) :: rest => do
      let value ← evaluate calls scope first
      evaluateKeywords calls scope (addKeyword done name value) rest

end

end TorchArchive
