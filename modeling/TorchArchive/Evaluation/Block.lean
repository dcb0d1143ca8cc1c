import TorchArchive.Evaluation.Basic

/-!
Execution of blocks. The statements of a block are a queue: those that a branch takes go
to its front, and a returned value ends the block, whatever is still pending.
-/

namespace TorchArchive

/-- The name under which a package, and every scope in it, knows its own name. -/
def moduleNameKey : String := "__name__"

/-- The name of the dictionary that the types of fields are recorded in. -/
def typesKey : String := "__annotations__"

/-- The name of the package that code in a scope belongs to. -/
def moduleNameOf (scope : Scope) : Run String := do
  return ((← Run.lookup scope moduleNameKey).str?).getD ""

/-! ## Assignments -/

/-- Puts a value under a key or at an index of a container. -/
def putItem (name : String) (container index value : Value) : Run Unit := do
  let heap ← Run.heap
  match container with
  | .dict ref =>
      let dict := heap.dict ref
      match dict.entries.put? index value with
      | some entries => Run.modifyHeap fun heap => heap.setDict ref { dict with entries }
      | none => throw (.type s!"unhashable type: '{heap.typeName index}'")
  | .list ref =>
      match index with
      | .atom a =>
          match a.integer? with
          | none =>
              throw (.type s!"list indices must be integers, not {a.typeName}")
          | some n =>
              let items := heap.list ref
              match Heap.position? items.length n with
              | some position =>
                  Run.modifyHeap fun heap => heap.setList ref (items.set position value)
              | none => throw .index
      | index =>
          throw (.type s!"list indices must be integers, not {heap.typeName index}")
  | _ => throw (.itemAssignment name)

/-- The dictionary that the types of fields are recorded in: the one in sight, or a
new one in the innermost frame. -/
def typesDict (scope : Scope) (found : Value) : Run Value := do
  match found with
  | .dict ref => return .dict ref
  | _ =>
      let ref ← Run.allocate fun heap => heap.addDict ⟨false, .empty⟩
      Run.bind scope typesKey (.dict ref)
      return .dict ref

/-- Binds the names of a tuple to the items of a value. -/
def bindTuple (scope : Scope) (targets : List Expr) (value : Value) :
    Run Unit := do
  match (← Run.heap).items? value, targets.mapM Expr.name? with
  | some items, some names =>
      if items.length = names.length then
        Run.modifyHeap fun heap =>
          (names.zip items).foldl
            (fun heap (name, item) => heap.bindIn scope name item) heap
      else throw .tupleArity
  | _, _ => throw .tupleArity

/-- Assigns a value to a target. -/
def assign (calls : Calls) (scope : Scope) (target : Expr) (value : Value) :
    Run Unit := do
  match target with
  | .identifier name => Run.bind scope name value
  | .item (.identifier name) index =>
      let index ← evaluate calls scope index
      let found ← Run.lookup scope name
      let container ← if name = typesKey then typesDict scope found else pure found
      putItem name container index value
  | .member owner name =>
      let owner ← evaluate calls scope owner
      Run.tryHeap fun heap => heap.setMember owner name value
  | .tuple targets => bindTuple scope targets value
  | target => throw (.assignmentTarget target.form)

/-! ## Statements -/

/-- Declares a function in a scope. -/
def declareFunction (scope : Scope) (name : String)
    (parameters : List String) (body : List Stmt) : Run Unit := do
  let module ← moduleNameOf scope
  let parameters ← Run.allocate fun heap => heap.addList (parameters.map .str)
  let ref ← Run.allocate fun heap =>
    heap.addFunction ⟨module, name, parameters, body, scope⟩
  Run.bind scope name (.function ref)

/-- Declares a class in a scope and gives the scope of its body. -/
def declareClass (scope : Scope) (name : String) : Run Scope := do
  let module ← moduleNameOf scope
  let ref ← Run.allocate fun heap => heap.addModuleClass module name
  Run.bind scope name (.moduleClass ref)
  return scope.push ((← Run.heap).moduleClass ref).members

/-- Loads a package and binds it if it gets another name. -/
def importPackage (calls : Calls) (scope : Scope) (name : String)
    (otherName : Option String) : Run Unit := do
  let ref ← calls.package name none
  match otherName with
  | none => pure ()
  | some otherName =>
      if otherName.isEmpty then pure () else Run.bind scope otherName (.package ref)

/-- Loads packages in order. -/
def importAll (calls : Calls) (scope : Scope) :
    List (String × Option String) → Run Unit
  | [] => pure ()
  | (name, otherName) :: rest => do
      importPackage calls scope name otherName
      importAll calls scope rest

/-- Runs the statements that are pending in a block and gives the value that it ends with;
nothing if it does not end before its last statement. A branch puts the statements that
are taken in front of those still pending. -/
def runBlock (calls : Calls) (scope : Scope) : List Stmt → Run Value
  | [] => return .none
  | .pass :: pending => runBlock calls scope pending
  | .returns result :: _ => evaluate calls scope result
  | .functionDef name parameters body :: pending => do
      declareFunction scope name parameters body
      runBlock calls scope pending
  | .classDef name _ body :: pending => do
      let inner ← declareClass scope name
      let _ ← runBlock calls inner body
      runBlock calls scope pending
  | .declare name :: pending => do
      Run.bind scope name .none
      runBlock calls scope pending
  | .assign target value :: pending => do
      assign calls scope target (← evaluate calls scope value)
      runBlock calls scope pending
  | .branch condition taken otherwise :: pending => do
      match ← evaluate calls scope condition with
      | .atom (.bool true) => runBlock calls scope (taken ++ pending)
      | .atom (.bool false) => runBlock calls scope (otherwise ++ pending)
      | _ => throw .unknownCondition
  | .call call :: pending => do
      let _ ← evaluate calls scope call
      runBlock calls scope pending
  | .imports packages :: pending => do
      importAll calls scope packages
      runBlock calls scope pending
  | .blank :: _ => throw (.unknownStatement "Statement")
termination_by pending => Stmt.spanAll pending
decreasing_by
  all_goals
    simp only [Stmt.spanAll, Stmt.span, Stmt.spanAll_append]
    omega

/-! ## Functions -/

/-- What the parameters of a function are bound to. The receiver goes to a first
parameter named `self`; parameters beyond the arguments get nothing. A parameter that is
no name takes its argument and binds nothing. -/
def bindParameters (receiver : Option Value) (parameters arguments : List Value) :
    List (String × Value) :=
  match receiver, parameters with
  | some receiver, .atom (.str "self") :: rest =>
      ("self", receiver) :: positional rest arguments
  | _, parameters => positional parameters arguments
where
  positional : List Value → List Value → List (String × Value)
    | [], _ => []
    | parameter :: rest, arguments =>
        let others := positional rest arguments.tail
        match parameter.str? with
        | some name => (name, arguments.headD .none) :: others
        | none => others

/-- Runs a function in a new frame on the scope that it was declared in. -/
def applyFunction (calls : Calls) (ref : Ref .function) (receiver : Option Value)
    (arguments : List Value) : Run Value := do
  let heap ← Run.heap
  let function := heap.function ref
  let parameters := heap.list function.parameters
  let frame := Table.ofList (bindParameters receiver parameters arguments)
  let table ← Run.allocate fun heap => heap.addTable frame
  runBlock calls (function.closure.push table) function.body

end TorchArchive
